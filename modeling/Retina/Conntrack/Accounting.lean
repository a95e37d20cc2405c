import Retina.Conntrack.Lifetime

/-! # Accounting of one entry

Each pending counter of a direction refines a deferred counter that observes the
visits of that direction. While no guarded addition skips a packet, reports and
pending value together account for everything that was processed.
-/
namespace Retina.Conntrack

/-- Whether the creation paths start the counter. The UDP path leaves the flag counts alone. -/
def Counter.counted (proto : UInt8) : Counter → Bool
  | .packets => true
  | .bytes => true
  | .flag _ => proto &&& ipprotoTcp != 0

def visitsOf (d : Direction) (log : List Visit) : List Visit := log.filter fun v => v.dir = d

def processed (d : Direction) (ctr : Counter) (log : List Visit) : ℕ :=
  ((visitsOf d log).map fun v => v.amount ctr).sum

def reported (d : Direction) (ctr : Counter) (log : List Visit) : ℕ :=
  (((visitsOf d log).filter fun v => v.report.report).map fun v => v.report.observed ctr + v.amount ctr).sum

def NotSaturated (d : Direction) (ctr : Counter) (log : List Visit) : Prop :=
  ∀ v ∈ log, v.dir = d → v.report.report = false → v.report.observed ctr + v.amount ctr ≤ counterLimit

instance (d : Direction) (ctr : Counter) (log : List Visit) : Decidable (NotSaturated d ctr log) :=
  inferInstanceAs (Decidable (∀ v ∈ log, _ → _ → _))

/-- The abstract counter that a pending counter refines. -/
def deferred (ctr : Counter) : DeferredCounter Visit where
  limit := counterLimit
  amount v := v.amount ctr
  delivered v := v.report.report

/-- At every visit the seen value is what the counter has pending from the older visits of
the same direction. -/
def Tracks (c : DeferredCounter Visit) (seen : Visit → ℕ) : List Visit → Prop
  | [] => True
  | v :: log => Tracks c seen log ∧ seen v = c.pending (visitsOf v.dir log)

abbrev Observes (ctr : Counter) (log : List Visit) : Prop :=
  Tracks (deferred ctr) (fun v => v.report.observed ctr) log

section Visits
variable {d : Direction} {ctr : Counter} {v : Visit} {log : List Visit}

theorem visitsOf_cons_self (h : v.dir = d) : visitsOf d (v :: log) = v :: visitsOf d log :=
  List.filter_cons_of_pos (decide_eq_true h)

theorem visitsOf_cons_other (h : v.dir ≠ d) : visitsOf d (v :: log) = visitsOf d log :=
  List.filter_cons_of_neg (by simpa using h)

theorem visitsOf_filter (p : Visit → Bool) : visitsOf d (log.filter p) = (visitsOf d log).filter p :=
  List.filter_comm _ _ _

theorem processed_cons_self (h : v.dir = d) :
    processed d ctr (v :: log) = v.amount ctr + processed d ctr log := by
  rw [processed, visitsOf_cons_self h]
  exact List.sum_cons

theorem processed_cons_other (h : v.dir ≠ d) : processed d ctr (v :: log) = processed d ctr log := by
  rw [processed, visitsOf_cons_other h]
  rfl

theorem reported_cons_self (h : v.dir = d) :
    reported d ctr (v :: log) =
      (if v.report.report then v.report.observed ctr + v.amount ctr else 0) + reported d ctr log := by
  rw [reported, visitsOf_cons_self h, List.filter_cons]
  split
  · exact List.sum_cons
  · exact (Nat.zero_add _).symm

theorem observes_cons : Observes ctr (v :: log) ↔
    Observes ctr log ∧ v.report.observed ctr = (deferred ctr).pending (visitsOf v.dir log) := Iff.rfl

/-- What a consumer makes of the deliveries, visit by visit. -/
theorem received_eq_sum {c : DeferredCounter Visit} {seen : Visit → ℕ} (consume : ℕ → Visit → ℕ)
    (h : Tracks c seen log) :
    c.received consume (visitsOf d log) =
      (((visitsOf d log).filter c.delivered).map fun v => consume (seen v) v).sum := by
  induction log with
  | nil => rfl
  | cons v log ih =>
    by_cases hd : v.dir = d
    · have hv := h.2
      rw [hd] at hv
      rw [visitsOf_cons_self hd, DeferredCounter.received, ih h.1, ← hv, List.filter_cons]
      split
      · rw [List.map_cons, List.sum_cons, Nat.add_comm]
      · rfl
    · rw [visitsOf_cons_other hd, ih h.1]

theorem exact_iff {c : DeferredCounter Visit} {seen : Visit → ℕ} {consume : ℕ → Visit → ℕ}
    (h : Tracks c seen log) :
    c.Exact consume (visitsOf d log) ↔ ∀ v ∈ log, v.dir = d →
      (c.delivered v = false → seen v + c.amount v ≤ c.limit) ∧
      (c.delivered v = true → consume (seen v) v = seen v + c.amount v) := by
  induction log with
  | nil => exact ⟨fun _ _ hv => absurd hv List.not_mem_nil,fun _ => trivial⟩
  | cons v log ih =>
    have hlog := ih h.1
    rw [List.forall_mem_cons]
    by_cases hd : v.dir = d
    · have hv := h.2
      rw [hd] at hv
      rw [visitsOf_cons_self hd, DeferredCounter.Exact, hlog, ← hv, and_comm]
      simp only [hd, forall_const]
    · rw [visitsOf_cons_other hd, hlog]
      simp only [hd, false_implies, true_and]

theorem sum_visitsOf (log : List Visit) (value : Visit → ℕ) :
    (log.map value).sum = ((visitsOf .tx log).map value).sum + ((visitsOf .rx log).map value).sum := by
  have hrx : visitsOf .rx log = log.filter fun v => ¬v.dir = .tx := by
    apply List.filter_congr
    intro v _
    cases v.dir <;> rfl
  rw [hrx]
  exact (List.sum_map_filter_add_sum_map_filter_not (fun v : Visit => v.dir = .tx) value log).symm

theorem Tracks.congr {b c : DeferredCounter Visit} {seen : Visit → ℕ} (h : Tracks c seen log)
    (hlimit : b.limit = c.limit) (hdelivered : b.delivered = c.delivered)
    (hamount : ∀ v ∈ log, c.delivered v = false → b.amount v = c.amount v) : Tracks b seen log := by
  induction log with
  | nil => trivial
  | cons v log ih =>
    have hold : ∀ u ∈ log, c.delivered u = false → b.amount u = c.amount u :=
      fun u hu => hamount u (List.mem_cons_of_mem v hu)
    refine ⟨ih h.1 hold,?_⟩
    rw [h.2]
    exact (c.pending_congr hlimit hdelivered fun u hu => hold u (List.mem_filter.mp hu).1).symm

theorem NotSaturated.exact (h : NotSaturated d ctr log) (ho : Observes ctr log) :
    (deferred ctr).Exact (fun pending v => pending + (deferred ctr).amount v) (visitsOf d log) :=
  (exact_iff ho).mpr fun v hv hd => ⟨h v hv hd,fun _ => rfl⟩

theorem processed_eq (ho : Observes ctr log) (hs : NotSaturated d ctr log) :
    processed d ctr log = reported d ctr log + (deferred ctr).pending (visitsOf d log) := by
  have hreported : reported d ctr log =
      (deferred ctr).received (fun pending v => pending + (deferred ctr).amount v) (visitsOf d log) :=
    (received_eq_sum (fun pending v => pending + (deferred ctr).amount v) ho).symm
  rw [hreported]
  exact ((deferred ctr).total_eq_received_iff (fun _ _ => Nat.le_refl _) _).mpr (hs.exact ho)

end Visits

/-! ## The refinement -/

theorem pending_newDirection (now : UInt64) (p : Packet) (sampled : Bool) {ctr : Counter}
    (hc : ctr.counted p.proto = true) :
    (newDirection now p sampled (p.proto &&& ipprotoTcp != 0)).pending ctr =
      if sampled then 0 else DeferredCounter.add counterLimit 0 (amount p.flags.toUInt8 p.bytes ctr) := by
  have hb : p.bytes.toNat ≤ counterLimit := Nat.le_of_lt_succ p.bytes.toNat_lt
  cases sampled with
  | true => cases ctr with
    | packets => rfl
    | bytes => rfl
    | flag f => cases f <;> rfl
  | false => cases ctr with
    | packets => rfl
    | bytes =>
      change p.bytes.toNat = _
      rw [if_neg Bool.false_ne_true, amount, DeferredCounter.add_of_le (by omega), Nat.zero_add]
    | flag f =>
      have hz : ({} : TcpFlagsCount).get f = 0 := by cases f <;> rfl
      simp only [Counter.counted] at hc
      simp only [CtDirection.pending, newDirection, hc, Bool.not_false, Bool.and_self, ↓reduceIte,
        ctRecordTcpFlags_get, recordTcpFlag_toNat, hz, amount, Bool.false_eq_true, UInt32.toNat_zero]

variable {cfg : Config} {key : CtV4Key}

/-- The pending counters of a living entry and the values in its reports are those
of deferred counters that observe the same visits. -/
theorem Lifetime.refines {entry : Option CtEntry} {log : List Visit} (h : Lifetime cfg key entry log)
    {ctr : Counter} (hc : ctr.counted key.proto = true) :
    Observes ctr log ∧ ∀ e ∈ entry, ∀ d, (e.dir d).pending ctr = (deferred ctr).pending (visitsOf d log) := by
  induction h with
  | unborn => exact ⟨trivial,nofun⟩
  | @born _ v entry hl hkey hbefore hnew hborn hreport hpacket ih =>
    rw [← hkey, connectionKey_proto] at hc
    refine ⟨observes_cons.mpr ⟨trivial,?_⟩,?_⟩
    · rw [hreport, observed_default]
      rfl
    · rintro e ⟨⟩ d
      rcases Direction.eq_or_eq_other v.dir d with rfl | rfl
      · have hdelivered : (deferred ctr).delivered v = v.call.sampled := congrArg PacketReport.report hreport
        rw [visitsOf_cons_self rfl, hborn.dir, pending_newDirection _ _ _ hc, DeferredCounter.pending, hdelivered]
        rfl
      · rw [visitsOf_cons_other (Direction.other_ne v.dir).symm, hborn.other, pending_default]
        rfl
  | @kept log v entry kept hl hkey hbefore hremoves hreport hobserved hkept hpacket ih =>
    obtain ⟨ho,hp⟩ := ih
    refine ⟨observes_cons.mpr ⟨ho,?_⟩,?_⟩
    · rw [hobserved, hp entry rfl]
    · rintro e ⟨⟩ d
      rcases Direction.eq_or_eq_other v.dir d with rfl | rfl
      · rw [visitsOf_cons_self rfl, hkept.pending, countEntry_dir, hp entry rfl]
        rfl
      · rw [visitsOf_cons_other (Direction.other_ne v.dir).symm, hkept.other, countEntry_dir, hp entry rfl]
  | @removed log v entry hl hkey hbefore hremoves hreport hobserved hpacket ih =>
    obtain ⟨ho,hp⟩ := ih
    exact ⟨observes_cons.mpr ⟨ho,by rw [hobserved, hp entry rfl]⟩,nofun⟩
  | evicted hl ih => exact ⟨ih.1,nofun⟩

/-- The call that deletes an entry is logged as a report. -/
theorem World.step_deletes (cfg : Config) (w : World) (c : Call) {d : Direction} {entry : CtEntry}
    (hf : Found w.map c.packet d entry)
    (hgone : (w.step cfg (.packet c)).map.lookup (c.packet.connectionKey d) = none) :
    (w.step cfg (.packet c)).log (c.packet.connectionKey d) =
        c.visit cfg w.map d :: w.log (c.packet.connectionKey d) ∧
      (c.visit cfg w.map d).report.report = true := by
  rw [World.step_packet_map, Call.process_lookup_eq_none_iff cfg hf] at hgone
  refine ⟨?_,(Call.process_of_removes cfg hf hgone).2⟩
  simp only [World.step, hf.direction, hf.lookup, Function.update_self, Option.isSome_some, ↓reduceIte]

/-- Accounting is conserved for each direction while an entry lives, and up to and
including the call that deletes it. -/
theorem accounting_conserved (cfg : Config) (events : List Event) (key : CtV4Key) (d : Direction)
    (ctr : Counter) (hc : ctr.counted key.proto = true)
    (hs : NotSaturated d ctr ((World.run cfg events).log key)) :
    (∀ entry, (World.run cfg events).map.lookup key = some entry →
      processed d ctr ((World.run cfg events).log key) =
        reported d ctr ((World.run cfg events).log key) + (entry.dir d).pending ctr) ∧
    (∀ (c : Call) (entry : CtEntry), Found (World.run cfg events).map c.packet d entry →
      c.packet.connectionKey d = key →
      (World.run cfg (events ++ [.packet c])).map.lookup key = none →
      processed d ctr ((World.run cfg (events ++ [.packet c])).log key) =
        reported d ctr ((World.run cfg (events ++ [.packet c])).log key)) := by
  obtain ⟨ho,hp⟩ := (World.run_lifetime cfg events key).refines hc
  constructor
  · intro entry hentry
    rw [hp entry hentry]
    exact processed_eq ho hs
  · intro c entry hf hkey hgone
    have ho' := ((World.run_lifetime cfg (events ++ [.packet c]) key).refines hc).1
    have hrun : World.run cfg (events ++ [.packet c]) = (World.run cfg events).step cfg (.packet c) :=
      Execution.run_append _ _ _
    rw [hrun] at hgone ho' ⊢
    subst hkey
    obtain ⟨hlog,hreport⟩ := World.step_deletes cfg _ c hf hgone
    rw [hlog] at ho' ⊢
    have hs' : NotSaturated d ctr (c.visit cfg (World.run cfg events).map d ::
        (World.run cfg events).log (c.packet.connectionKey d)) := by
      intro v hv hdir hr
      rcases List.mem_cons.mp hv with rfl | hv
      · rw [hreport] at hr
        cases hr
      · exact hs v hv hdir hr
    rw [processed_eq ho' hs', visitsOf_cons_self (d := d) rfl, DeferredCounter.pending_of_delivered _ hreport,
      Nat.add_zero]

theorem accounting_conserved_handshake :
    ∃ entry, (World.run sampleConfig handshake).map.lookup tcpKey = some entry ∧
      processed .tx .bytes ((World.run sampleConfig handshake).log tcpKey) = 212 ∧
      processed .tx .bytes ((World.run sampleConfig handshake).log tcpKey) =
        reported .tx .bytes ((World.run sampleConfig handshake).log tcpKey) + (entry.dir .tx).pending .bytes := by
  exact ⟨_,rfl,by decide,
    (accounting_conserved sampleConfig handshake tcpKey .tx .bytes (by decide) (by decide)).1 _ rfl⟩

end Retina.Conntrack
