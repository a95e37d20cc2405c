import Retina.Conntrack.Accounting

/-! # Reports are not starved

The report interval is measured from the last report of a direction. Once it has
passed since a packet that was held back, the direction's next packet is reported,
whatever the sampling, unless another report came first; and the first report
after a packet was held back carries it.
-/
namespace Retina.Conntrack

def Event.call : Event → Option Call
  | .packet c => some c
  | .remove _ => none

def TimeOrdered (events : List Event) : Prop :=
  (events.filterMap Event.call).Pairwise fun earlier later => earlier.now ≤ later.now

instance (events : List Event) : Decidable (TimeOrdered events) :=
  inferInstanceAs (Decidable (List.Pairwise _ _))

def Chronological (log : List Visit) : Prop :=
  log.Pairwise fun newer older => older.call.now ≤ newer.call.now

def heldBack (d : Direction) (log : List Visit) : List Visit :=
  (visitsOf d log).takeWhile fun v => !v.report.report

/-- A step extends, restarts or keeps the log of a key. -/
theorem World.step_log (cfg : Config) (w : World) (e : Event) (key : CtV4Key) :
    (w.step cfg e).log key = w.log key ∨
    ∃ c v, e = .packet c ∧ v.call = c ∧
      ((w.step cfg e).log key = v :: w.log key ∨ (w.step cfg e).log key = [v]) := by
  cases e with
  | remove gone => exact .inl rfl
  | packet c =>
    cases hd : c.direction w.map with
    | none =>
      rw [World.step_of_direction_none cfg w c hd]
      exact .inl rfl
    | some d =>
      by_cases hk : key = c.packet.connectionKey d
      · subst hk
        refine .inr ⟨c,c.visit cfg w.map d,rfl,rfl,?_⟩
        simp only [World.step, hd, Function.update_self]
        split
        · exact .inl rfl
        · exact .inr rfl
      · exact .inl (World.step_of_direction cfg w c hd hk).2

theorem World.run_log_sublist (cfg : Config) (events : List Event) (key : CtV4Key) :
    (((World.run cfg events).log key).map Visit.call).Sublist (events.filterMap Event.call).reverse := by
  induction events using List.reverseRecOn with
  | nil => exact List.Sublist.refl _
  | append_singleton events e ih =>
    have hrun : World.run cfg (events ++ [e]) = (World.run cfg events).step cfg e := Execution.run_append _ _ _
    rw [hrun, List.filterMap_append, List.reverse_append]
    rcases World.step_log cfg (World.run cfg events) e key with hlog | ⟨c,v,rfl,rfl,hlog | hlog⟩
    · rw [hlog]
      exact ih.trans (List.sublist_append_right _ _)
    · rw [hlog]
      exact ih.cons_cons v.call
    · rw [hlog]
      exact (List.nil_sublist _).cons_cons v.call

theorem World.run_chronological (cfg : Config) {events : List Event} (h : TimeOrdered events) (key : CtV4Key) :
    Chronological ((World.run cfg events).log key) := by
  have hreverse := (List.pairwise_reverse.mpr h).sublist (World.run_log_sublist cfg events key)
  exact List.pairwise_map.mp hreverse

section Lifetime
variable {cfg : Config} {key : CtV4Key}

/-- A visit that is not the first finds the entry that the older visits left. -/
theorem Lifetime.visit {entry : Option CtEntry} {v : Visit} {log : List Visit}
    (h : Lifetime cfg key entry (v :: log)) (hne : log ≠ []) :
    ∃ e, Lifetime cfg key (some e) log ∧
      (v.report.report = true ∨
        v.report.report = reports cfg v.call.now key e v.call.flags v.dir v.call.sampled) ∧
      ∀ kept ∈ entry, Kept v.call.now key v.call.flags v.call.packet.bytes v.dir v.report.report
        (countEntry cfg e v.dir v.call.packet.bytes) kept := by
  generalize hlog : v :: log = visits at h
  induction h with
  | unborn => cases hlog
  | born hl hkey hbefore hnew hborn hreport hpacket ih => exact absurd (List.cons.inj hlog).2 hne
  | kept hl hkey hbefore hremoves hreport hobserved hkept hpacket ih =>
    obtain ⟨rfl,rfl⟩ := List.cons.inj hlog
    refine ⟨_,hl,.inr hreport,?_⟩
    rintro e ⟨⟩
    exact hkept
  | removed hl hkey hbefore hremoves hreport hobserved hpacket ih =>
    obtain ⟨rfl,rfl⟩ := List.cons.inj hlog
    exact ⟨_,hl,.inl hreport,nofun⟩
  | evicted hl ih =>
    obtain ⟨e,he,hreport,-⟩ := ih hlog
    exact ⟨e,he,hreport,nofun⟩

/-- The older part of a log was the log of its key once. -/
theorem Lifetime.suffix {entry : Option CtEntry} {newer older : List Visit}
    (h : Lifetime cfg key entry (newer ++ older)) (hne : older ≠ []) : ∃ e, Lifetime cfg key e older := by
  induction newer generalizing entry with
  | nil => exact ⟨entry,h⟩
  | cons v newer ih =>
    obtain ⟨e,he,-⟩ := Lifetime.visit h (List.append_ne_nil_of_right_ne_nil newer hne)
    exact ih he

/-- The last report of a direction is not later than any time that no visit exceeds. -/
theorem Lifetime.lastReport_le {entry : Option CtEntry} {log : List Visit} (h : Lifetime cfg key entry log)
    (t : UInt64) (ht : ∀ v ∈ log, v.call.now ≤ t) :
    ∀ e ∈ entry, ∀ d, (e.dir d).lastReport.toNat ≤ t.toNat := by
  have htruncated : ∀ now : UInt64, now ≤ t → now.toUInt32.toNat ≤ t.toNat := by
    intro now hnow
    rw [UInt64.toNat_toUInt32]
    exact (Nat.mod_le _ _).trans (UInt64.le_iff_toNat_le.mp hnow)
  induction h with
  | unborn => exact nofun
  | @born _ v entry hl hkey hbefore hnew hborn hreport hpacket ih =>
    rintro e ⟨⟩ d
    rcases Direction.eq_or_eq_other v.dir d with rfl | rfl
    · rw [hborn.dir]
      change (if _ then _ else _ : UInt32).toNat ≤ _
      split
      · exact htruncated _ (ht v List.mem_cons_self)
      · exact Nat.zero_le _
    · rw [hborn.other]
      exact Nat.zero_le _
  | @kept log v entry kept hl hkey hbefore hremoves hreport hobserved hkept hpacket ih =>
    rintro e ⟨⟩ d
    have hold := ih (fun u hu => ht u (List.mem_cons_of_mem v hu)) entry rfl d
    rcases Direction.eq_or_eq_other v.dir d with rfl | rfl
    · rw [hkept.lastReport, countEntry_dir]
      split
      · exact htruncated _ (ht v List.mem_cons_self)
      · exact hold
    · rw [hkept.other, countEntry_dir]
      exact hold
  | removed hl hkey hbefore hremoves hreport hobserved hpacket ih => exact nofun
  | evicted hl ih => exact nofun

/-- While no report of the direction follows a visit that was held back, the last report
is not later than that visit. -/
theorem Lifetime.lastReport_le_heldBack {entry : CtEntry} {mid older : List Visit} {v : Visit}
    (h : Lifetime cfg key (some entry) (mid ++ v :: older)) (hc : Chronological (v :: older))
    (hv : v.report.report = false) (hmid : ∀ u ∈ mid, u.dir = v.dir → u.report.report = false) :
    (entry.dir v.dir).lastReport.toNat ≤ v.call.now.toNat := by
  have hle : ∀ u ∈ v :: older, u.call.now ≤ v.call.now := by
    intro u hu
    rcases List.mem_cons.mp hu with rfl | hu
    · exact UInt64.le_refl _
    · exact List.rel_of_pairwise_cons hc hu
  induction mid generalizing entry with
  | nil => exact h.lastReport_le v.call.now hle entry rfl v.dir
  | cons u mid ih =>
    have hne : mid ++ v :: older ≠ [] := List.append_ne_nil_of_right_ne_nil mid (List.cons_ne_nil v older)
    obtain ⟨e,hl,-,hkept⟩ := Lifetime.visit h hne
    have hold := ih hl (fun u' hu' => hmid u' (List.mem_cons_of_mem u hu'))
    have hkept := hkept entry rfl
    rcases Direction.eq_or_eq_other u.dir v.dir with hd | hd
    · have hu := hmid u List.mem_cons_self hd.symm
      rw [hd] at hold ⊢
      rwa [hkept.lastReport, hu, countEntry_dir]
    · rw [hd] at hold ⊢
      rwa [hkept.other, countEntry_dir]

theorem reports_of_interval (cfg : Config) {now t : UInt64} (key : CtV4Key) {entry : CtEntry} (flags : UInt8)
    {d : Direction} (sampled : Bool) (hlast : (entry.dir d).lastReport.toNat ≤ t.toNat)
    (hnow : t.toNat + cfg.ctReportInterval.toNat ≤ now.toNat) :
    reports cfg now key entry flags d sampled = true := by
  have hl : (entry.dir d).lastReport.toUInt64.toNat = (entry.dir d).lastReport.toNat :=
    UInt32.toNat_toUInt64 _
  have hi : cfg.ctReportInterval.toUInt64.toNat = cfg.ctReportInterval.toNat := UInt32.toNat_toUInt64 _
  have hsub : (now - (entry.dir d).lastReport.toUInt64).toNat = now.toNat - (entry.dir d).lastReport.toNat := by
    rw [UInt64.toNat_sub_of_le _ _ (UInt64.le_iff_toNat_le.mpr (by omega)), hl]
  have helapsed : now - (entry.dir d).lastReport.toUInt64 ≥ cfg.ctReportInterval.toUInt64 := by
    rw [ge_iff_le, UInt64.le_iff_toNat_le, hsub, hi]
    omega
  rw [reports, decide_eq_true helapsed, Bool.or_true]

end Lifetime

theorem pending_eq_heldBack {d : Direction} {ctr : Counter} {log : List Visit} (ho : Observes ctr log)
    (hs : NotSaturated d ctr log) :
    (deferred ctr).pending (visitsOf d log) = ((heldBack d log).map fun v => v.amount ctr).sum :=
  (deferred ctr).pending_eq_sum (hs.exact ho)

theorem mem_heldBack {v : Visit} {mid older : List Visit} (hv : v.report.report = false)
    (hmid : ∀ u ∈ mid, u.dir = v.dir → u.report.report = false) : v ∈ heldBack v.dir (mid ++ v :: older) := by
  have hall : ∀ u ∈ visitsOf v.dir mid, (!u.report.report) = true := by
    intro u hu
    obtain ⟨hu,hd⟩ := List.mem_filter.mp hu
    rw [hmid u hu (of_decide_eq_true hd)]
    rfl
  have hvisits : visitsOf v.dir (mid ++ v :: older) = visitsOf v.dir mid ++ v :: visitsOf v.dir older := by
    rw [visitsOf, List.filter_append]
    congr 1
    exact visitsOf_cons_self rfl
  rw [heldBack, hvisits, List.takeWhile_append_of_pos hall, List.takeWhile_cons_of_pos (by rw [hv]; rfl)]
  exact List.mem_append_right _ List.mem_cons_self

/-- A packet that was held back is followed by a report of its direction as soon as a
packet of that direction comes once the interval has passed, and the first report
carries everything held back since the report before, this packet included. -/
theorem reporting_not_starved (cfg : Config) (events : List Event) (hm : TimeOrdered events) (key : CtV4Key)
    (newer mid older : List Visit) (w v : Visit)
    (hlog : (World.run cfg events).log key = newer ++ w :: (mid ++ v :: older))
    (hv : v.report.report = false) (hd : w.dir = v.dir)
    (hmid : ∀ u ∈ mid, u.dir = v.dir → u.report.report = false) :
    (v.call.now.toNat + cfg.ctReportInterval.toNat ≤ w.call.now.toNat → w.report.report = true) ∧
    (w.report.report = true → ∀ ctr : Counter, ctr.counted key.proto = true →
      NotSaturated v.dir ctr ((World.run cfg events).log key) →
      v ∈ heldBack v.dir (mid ++ v :: older) ∧
      w.report.observed ctr = ((heldBack v.dir (mid ++ v :: older)).map fun u => u.amount ctr).sum) := by
  have hlife := World.run_lifetime cfg events key
  have hchron := World.run_chronological cfg hm key
  rw [hlog] at hlife hchron
  have hne : mid ++ v :: older ≠ [] := List.append_ne_nil_of_right_ne_nil mid (List.cons_ne_nil v older)
  obtain ⟨_,hw⟩ := hlife.suffix (List.cons_ne_nil w _)
  obtain ⟨entry,hentry,hreport,-⟩ := Lifetime.visit hw hne
  constructor
  · intro hnow
    have hsub : (v :: older).Sublist (newer ++ w :: (mid ++ v :: older)) :=
      (List.sublist_append_right mid _).trans
        ((List.sublist_cons_self w _).trans (List.sublist_append_right newer _))
    have hlast := hentry.lastReport_le_heldBack (hchron.sublist hsub) hv hmid
    rcases hreport with hreport | hreport
    · exact hreport
    · rw [hreport, hd]
      exact reports_of_interval cfg key _ _ hlast hnow
  · intro _ ctr hc hs
    refine ⟨mem_heldBack hv hmid,?_⟩
    obtain ⟨ho,hobserved⟩ := observes_cons.mp (hw.refines hc).1
    rw [hlog] at hs
    have hs' : NotSaturated v.dir ctr (mid ++ v :: older) := by
      intro u hu
      exact hs u (List.mem_append_right newer (List.mem_cons_of_mem w hu))
    rw [hobserved, hd]
    exact pending_eq_heldBack ho hs'

def datagram (now : UInt64) : Event := .packet ⟨now,clientPacket ipprotoUdp 1 40,0,true⟩

theorem reporting_not_starved_datagrams :
    ∃ w v first, (World.run sampleConfig [datagram 1000,datagram 1010,datagram 1040]).log udpKey = [w,v,first] ∧
      v.report.report = false ∧ w.report.report = true ∧ v ∈ heldBack v.dir [v,first] ∧
      w.report.observed .bytes = ((heldBack v.dir [v,first]).map fun u => u.amount .bytes).sum := by
  obtain ⟨w,v,first,hlog⟩ := List.length_eq_three.mp (by decide :
    ((World.run sampleConfig [datagram 1000,datagram 1010,datagram 1040]).log udpKey).length = 3)
  have hvisits : ((World.run sampleConfig [datagram 1000,datagram 1010,datagram 1040]).log udpKey).map
      (fun u => (u.call.now,u.dir,u.report.report)) =
        [(1040,.tx,true),(1010,.tx,false),(1000,.tx,true)] := by decide
  simp only [hlog, List.map_cons, List.map_nil, List.cons.injEq, Prod.mk.injEq] at hvisits
  obtain ⟨⟨hwt,hwd,-⟩,⟨hvt,hvd,hvr⟩,-⟩ := hvisits
  have h := reporting_not_starved sampleConfig [datagram 1000,datagram 1010,datagram 1040] (by decide) udpKey
    [] [] [first] w v hlog hvr (hwd.trans hvd.symm) (fun _ hu => absurd hu List.not_mem_nil)
  have hreport := h.1 (by rw [hwt, hvt]; decide)
  have hs : NotSaturated v.dir .bytes
      ((World.run sampleConfig [datagram 1000,datagram 1010,datagram 1040]).log udpKey) := by
    rw [hvd]
    decide
  exact ⟨w,v,first,hlog,hvr,hreport,h.2 hreport .bytes rfl hs⟩

/-- The packet at 1010 is held back, and the first packet at least 30 seconds later is
not reported, since a report came at 1030. -/
theorem datagram_after_interval_not_reported :
    ((World.run sampleConfig [datagram 1000,datagram 1010,datagram 1030,datagram 1040]).log udpKey).map
      (fun v => (v.call.now,v.report.report)) = [(1040,false),(1030,true),(1010,false),(1000,true)] := by
  decide

end Retina.Conntrack
