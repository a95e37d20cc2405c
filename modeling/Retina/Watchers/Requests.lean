import Retina.Watchers.ApiServer

/-! # The requests of the watcher

A refresh hands the new addresses to the filter manager in one call, with a nil address
for each IPv6 text. The call then fails for all addresses that the filter manager does not
know yet, and the watcher takes the new texts as its current ones all the same.
-/
namespace Retina.Watchers
open Cache (NetIP isIPV4)
open Retina.Filter

structure RefreshOp where
  new : Finset String
  env : RefreshEnv

def Spells (parseIP : String → NetIP) (texts : Finset String) (ip : NetIP) : Prop :=
  isIPV4 ip = true ∧ ∃ text ∈ texts, parseIP text = ip

def lastResolved (ops : List RefreshOp) : Finset String :=
  match ops.getLast? with
  | none => ∅
  | some op => op.new

namespace ApiServerWatcher

def Requested (w : ApiServerWatcher) (ip : NetIP) : Prop :=
  w.filterManager.c.Holds ip apiServerReq apiServerReqMetadata

section
variable (parseIP : String → NetIP)

def step (w : ApiServerWatcher) (op : RefreshOp) : ApiServerWatcher :=
  match w.refreshTo parseIP op.new op.env with
  | none => w
  | some r => r.watcher

structure Succeeds (w : ApiServerWatcher) (op : RefreshOp) : Prop where
  safe : ∃ r, w.refreshTo parseIP op.new op.env = some r
  adds : Accepts op.env.adds
  deletes : Accepts op.env.deletes

/-- All new texts are IPv4, or the filter manager knows those that are. No address is both gone and there. -/
structure Sound (w : ApiServerWatcher) (op : RefreshOp) : Prop where
  created : (∀ text ∈ op.new \ w.current, isIPV4 (parseIP text) = true) ∨
    ∀ text ∈ op.new \ w.current, isIPV4 (parseIP text) = true → w.filterManager.hasIP (parseIP text) = true
  deleted : ∀ text ∈ w.current \ op.new, ¬Spells parseIP op.new (parseIP text)

end

/-! ## What a refresh does to the requests -/

variable {parseIP : String → NetIP} {w : ApiServerWatcher} {op : RefreshOp}

theorem mem_map_to4 {texts : Finset String} {ips : List NetIP}
    (hips : ∀ ip, ip ∈ ips ↔ ∃ text ∈ texts, to4 (parseIP text) = ip) {ip : NetIP} (hv4 : isIPV4 ip = true) :
    ip ∈ ips ↔ Spells parseIP texts ip := by
  rw [hips]
  constructor
  · intro ⟨text,htext,heq⟩
    have htext4 : isIPV4 (parseIP text) = true := by
      apply to4_ne_nil_iff.mp
      intro hnil
      rw [← heq, hnil] at hv4
      cases hv4
    exact ⟨hv4,text,htext,(to4_of_isIPV4 htext4).symm.trans heq⟩
  · intro ⟨_,text,htext,heq⟩
    exact ⟨text,htext,by rw [heq, to4_of_isIPV4 hv4]⟩

theorem all_isIPV4_iff {texts : Finset String} {ips : List NetIP}
    (hips : ∀ ip, ip ∈ ips ↔ ∃ text ∈ texts, to4 (parseIP text) = ip) :
    (∀ ip ∈ ips, isIPV4 ip = true) ↔ ∀ text ∈ texts, isIPV4 (parseIP text) = true := by
  constructor
  · intro h text htext
    have hv4 := h _ ((hips _).mpr ⟨text,htext,rfl⟩)
    apply to4_ne_nil_iff.mp
    intro hnil
    simp [hnil, isIPV4] at hv4
  · intro h ip hip
    obtain ⟨text,htext,rfl⟩ := (hips ip).mp hip
    rw [to4_of_isIPV4 (h text htext)]
    exact h text htext

section
variable (hw : w.filterManager.Working) {env : RefreshEnv} (hadds : Accepts env.adds) (hdeletes : Accepts env.deletes)
include hw hadds hdeletes

/-- The calls to the filter manager are left out for empty lists, which makes no difference. -/
theorem manage_spec (createdIPs deletedIPs : List NetIP) :
    (w.manage createdIPs deletedIPs env).Working ∧
      ∀ ip, (w.manage createdIPs deletedIPs env).c.Holds ip apiServerReq apiServerReqMetadata ↔
        (w.Requested ip ∨ ip ∈ createdIPs ∧
          ((∀ ip' ∈ createdIPs, isIPV4 ip' = true) ∨ w.filterManager.hasIP ip = true)) ∧ ip ∉ deletedIPs := by
  have hadd : ∃ f, f = (if createdIPs.length > 0 then
      (w.filterManager.addIPs createdIPs apiServerReq apiServerReqMetadata env.adds).1 else w.filterManager) ∧
      f.Working ∧ ∀ ip, f.c.Holds ip apiServerReq apiServerReqMetadata ↔ w.Requested ip ∨ ip ∈ createdIPs ∧
        ((∀ ip' ∈ createdIPs, isIPV4 ip' = true) ∨ w.filterManager.hasIP ip = true) := by
    refine ⟨_,rfl,?_⟩
    split
    · by_cases hall : ∀ ip' ∈ createdIPs, isIPV4 ip' = true
      · obtain ⟨-,hworking,hholds⟩ := hw.addIPs_spec hadds apiServerReq apiServerReqMetadata hall
        refine ⟨hworking,fun ip => (hholds ip _ _).trans ?_⟩
        simp only [Requested, iff_true_intro hall, true_or, and_true]
      · obtain ⟨-,hworking,hholds⟩ := hw.addIPs_of_not_all hadds apiServerReq apiServerReqMetadata hall
        refine ⟨hworking,fun ip => (hholds ip _ _).trans ?_⟩
        simp only [Requested, FilterManager.hasIP, hall, false_or, and_true]
    · next hnil =>
      have hempty : createdIPs = [] := List.length_eq_zero_iff.mp (by omega)
      exact ⟨hw,fun ip => by simp [hempty, Requested]⟩
  obtain ⟨f,hf,hworking,hholds⟩ := hadd
  have hmanage : w.manage createdIPs deletedIPs env = if deletedIPs.length > 0 then
      (f.deleteIPs deletedIPs apiServerReq apiServerReqMetadata env.deletes).1 else f := by rw [hf]; rfl
  rw [hmanage]
  split
  · obtain ⟨-,hworking',hholds'⟩ := hworking.deleteIPs_spec hdeletes apiServerReq apiServerReqMetadata deletedIPs
    refine ⟨hworking',fun ip => (hholds' ip _ _).trans ?_⟩
    simp only [hholds, and_true]
  · next hnil =>
    have hempty : deletedIPs = [] := List.length_eq_zero_iff.mp (by omega)
    exact ⟨hworking,fun ip => by simp [hholds, hempty]⟩

end

/-- A filter manager that agrees with its kernel map holds requests for IPv4 addresses only. -/
theorem isIPV4_of_requested (hw : w.filterManager.Working) {ip : NetIP} (h : w.Requested ip) : isIPV4 ip = true := by
  have hkey := (FilterCache.hasKey_iff w.filterManager.c ip).mpr ⟨apiServerReq,apiServerReqMetadata,h⟩
  obtain ⟨key,-,hmap⟩ := hw.mirrors.cached ip hkey
  exact FilterManager.isIPV4_of_mapKey hmap

theorem step_eq (h : w.Succeeds parseIP op) : w.step parseIP op =
    ⟨op.new,w.manage (w.createdIPs parseIP op.new op.env.order) (w.deletedIPs parseIP op.new op.env.order) op.env⟩ := by
  obtain ⟨r,hr⟩ := h.safe
  unfold step
  rw [hr]
  unfold refreshTo at hr
  cases hadd : publish (w.createdIPs parseIP op.new op.env.order) .addAPIServerIPs with
  | none => simp [hadd] at hr
  | some added =>
    cases hdelete : publish (w.deletedIPs parseIP op.new op.env.order) .deleteAPIServerIPs with
    | none => simp [hadd, hdelete] at hr
    | some removed =>
      simp only [hadd, hdelete, Option.some.injEq] at hr
      rw [← hr]

theorem step_spec (hw : w.filterManager.Working) (h : w.Succeeds parseIP op) :
    (w.step parseIP op).filterManager.Working ∧ (w.step parseIP op).current = op.new ∧
      ∀ ip, isIPV4 ip = true → ((w.step parseIP op).Requested ip ↔
        (w.Requested ip ∨ Spells parseIP (op.new \ w.current) ip ∧
          ((∀ text ∈ op.new \ w.current, isIPV4 (parseIP text) = true) ∨ w.filterManager.hasIP ip = true)) ∧
        ¬Spells parseIP (w.current \ op.new) ip) := by
  obtain ⟨hworking,hholds⟩ := manage_spec hw h.adds h.deletes (w.createdIPs parseIP op.new op.env.order)
    (w.deletedIPs parseIP op.new op.env.order)
  rw [step_eq h]
  refine ⟨hworking,rfl,?_⟩
  intro ip hv4
  refine (hholds ip).trans ?_
  rw [all_isIPV4_iff (fun _ => mem_createdIPs), mem_map_to4 (fun _ => mem_createdIPs) hv4,
    mem_map_to4 (fun _ => mem_deletedIPs) hv4]

theorem spells_split (current : Finset String) {new : Finset String} {ip : NetIP} (h : Spells parseIP new ip) :
    Spells parseIP current ip ∨ Spells parseIP (new \ current) ip := by
  obtain ⟨hv4,text,htext,heq⟩ := h
  by_cases hcurrent : text ∈ current
  · exact .inl ⟨hv4,text,hcurrent,heq⟩
  · exact .inr ⟨hv4,text,Finset.mem_sdiff.mpr ⟨htext,hcurrent⟩,heq⟩

theorem Spells.mono {texts texts' : Finset String} {ip : NetIP} (h : Spells parseIP texts ip) (hsub : texts ⊆ texts') :
    Spells parseIP texts' ip := ⟨h.1,h.2.imp fun _ htext => ⟨hsub htext.1,htext.2⟩⟩

structure Faithful (parseIP : String → NetIP) (w : ApiServerWatcher) : Prop where
  working : w.filterManager.Working
  requested : ∀ ip, w.Requested ip ↔ Spells parseIP w.current ip

theorem Faithful.sound (hw : w.Faithful parseIP) (h : w.Succeeds parseIP op)
    (hstep : (w.step parseIP op).Faithful parseIP) : w.Sound parseIP op := by
  obtain ⟨-,hcurrent,hreq⟩ := step_spec hw.working h
  -- Every address of the new texts is requested afterwards, and the specification says why.
  have hafter : ∀ ip, Spells parseIP op.new ip →
      (w.Requested ip ∨ Spells parseIP (op.new \ w.current) ip ∧
        ((∀ text ∈ op.new \ w.current, isIPV4 (parseIP text) = true) ∨ w.filterManager.hasIP ip = true)) ∧
      ¬Spells parseIP (w.current \ op.new) ip := by
    intro ip hip
    exact (hreq ip hip.1).mp ((hstep.requested ip).mpr (hcurrent ▸ hip))
  constructor
  · by_cases hall : ∀ text ∈ op.new \ w.current, isIPV4 (parseIP text) = true
    · exact .inl hall
    · right
      intro text htext hv4
      obtain ⟨hheld | ⟨-,hall' | hhas⟩,-⟩ := hafter _ ⟨hv4,text,(Finset.mem_sdiff.mp htext).1,rfl⟩
      · exact (FilterCache.hasKey_iff w.filterManager.c _).mpr ⟨apiServerReq,apiServerReqMetadata,hheld⟩
      · exact absurd hall' hall
      · exact hhas
  · intro text htext hspells
    exact (hafter _ hspells).2 ⟨hspells.1,text,htext,rfl⟩

theorem Faithful.step (hw : w.Faithful parseIP) (h : w.Succeeds parseIP op) (hsound : w.Sound parseIP op) :
    (w.step parseIP op).Faithful parseIP := by
  obtain ⟨hworking,hcurrent,hreq⟩ := step_spec hw.working h
  refine ⟨hworking,fun ip => ?_⟩
  rw [hcurrent]
  constructor
  · intro hip
    have hv4 := isIPV4_of_requested hworking hip
    obtain ⟨hold | ⟨hnew,-⟩,hkept⟩ := (hreq ip hv4).mp hip
    · obtain ⟨-,text,htext,heq⟩ := (hw.requested ip).mp hold
      refine ⟨hv4,text,?_,heq⟩
      by_contra hgone
      exact hkept ⟨hv4,text,Finset.mem_sdiff.mpr ⟨htext,hgone⟩,heq⟩
    · exact Spells.mono hnew Finset.sdiff_subset
  · intro hip
    refine (hreq ip hip.1).mpr ⟨?_,?_⟩
    · obtain hold | hnew := spells_split w.current hip
      · exact .inl ((hw.requested ip).mpr hold)
      · obtain ⟨hv4,text,htext,rfl⟩ := hnew
        refine .inr ⟨⟨hv4,text,htext,rfl⟩,?_⟩
        exact hsound.created.imp id fun hknown => hknown text htext hv4
    · intro ⟨_,text,htext,heq⟩
      exact hsound.deleted text htext (heq ▸ hip)

/-- A refresh keeps the requests right exactly if it is sound. -/
theorem Faithful.step_iff (hw : w.Faithful parseIP) (h : w.Succeeds parseIP op) :
    (w.step parseIP op).Faithful parseIP ↔ w.Sound parseIP op :=
  ⟨hw.sound h,hw.step h⟩

theorem faithful_run (hw : w.Faithful parseIP) {ops : List RefreshOp}
    (hops : Execution.Along (step parseIP) (Succeeds parseIP) w ops)
    (hsound : Execution.Along (step parseIP) (Sound parseIP) w ops) :
    (Execution.run (step parseIP) w ops).Faithful parseIP :=
  Execution.invariant (fun _ _ hw hop => hw.step hop.1 hop.2) hw (hops.and hsound)

theorem working_run (hw : w.filterManager.Working) {ops : List RefreshOp}
    (hops : Execution.Along (step parseIP) (Succeeds parseIP) w ops) :
    (Execution.run (step parseIP) w ops).filterManager.Working :=
  Execution.invariant (I := fun w : ApiServerWatcher => w.filterManager.Working)
    (fun _ _ hw hop => (step_spec hw hop).1) hw hops

/-- The current texts are those of the last refresh. -/
theorem current_run (hw : w.filterManager.Working) (hstart : w.current = ∅) {ops : List RefreshOp}
    (hops : Execution.Along (step parseIP) (Succeeds parseIP) w ops) :
    (Execution.run (step parseIP) w ops).current = lastResolved ops := by
  cases ops using List.reverseRecOn with
  | nil => exact hstart
  | append_singleton ops op =>
    obtain ⟨hbefore,hop,-⟩ := (Execution.along_append _ _ _ _).mp hops
    rw [Execution.run_append, lastResolved, List.getLast?_concat]
    exact (step_spec (working_run hw hbefore) hop).2.1

end ApiServerWatcher

/-- After each refresh the requests are those for the IPv4 addresses exactly if every refresh is sound. -/
theorem api_server_requested_iff (parseIP : String → NetIP) (f : FilterManager) (hf : f.Working)
    (hnone : ∀ ip, ¬f.c.Holds ip apiServerReq apiServerReqMetadata) (ops : List RefreshOp)
    (hops : Execution.Along (ApiServerWatcher.step parseIP) (ApiServerWatcher.Succeeds parseIP)
      { filterManager := f } ops) :
    (∀ earlier, earlier <+: ops → ∀ ip,
      (Execution.run (ApiServerWatcher.step parseIP) { filterManager := f } earlier).filterManager.c.Holds ip
        apiServerReq apiServerReqMetadata ↔
      isIPV4 ip = true ∧ ∃ text ∈ lastResolved earlier, parseIP text = ip) ↔
    Execution.Along (ApiServerWatcher.step parseIP) (ApiServerWatcher.Sound parseIP) { filterManager := f } ops := by
  have hstart : ({ filterManager := f } : ApiServerWatcher).Faithful parseIP := by
    refine ⟨hf,fun ip => iff_of_false (hnone ip) ?_⟩
    intro ⟨_,text,htext,_⟩
    exact absurd htext (Finset.notMem_empty text)
  refine Execution.forall_prefix_iff_along ?_ ?_ hops
  · intro es hes hsound ip
    rw [← ApiServerWatcher.current_run hf rfl hes]
    exact (ApiServerWatcher.faithful_run hstart hes hsound).requested ip
  · intro es op hes hsound hop hnot hall
    have hconcat := (Execution.along_append _ _ _ [op]).mpr ⟨hes,hop,trivial⟩
    rw [← ApiServerWatcher.current_run hf rfl hconcat] at hall
    refine hnot (((ApiServerWatcher.faithful_run hstart hes hsound).step_iff hop).mp ⟨?_,?_⟩)
    · exact (ApiServerWatcher.step_spec (ApiServerWatcher.working_run hf hes) hop).1
    · intro ip
      rw [Execution.run_append] at hall
      exact hall ip

section Sample

noncomputable def resolved (texts : Finset String) : RefreshOp := ⟨texts,sampleRefreshEnv⟩

/-- The refresh comes to its end if its IPv4 address is new and no other one is gone. -/
theorem succeeds_resolved {w : ApiServerWatcher} {texts : Finset String}
    (hcreated : SomeIPv4 sampleParseIP (texts \ w.current)) (hdeleted : SomeIPv4 sampleParseIP (w.current \ texts)) :
    w.Succeeds sampleParseIP (resolved texts) :=
  ⟨(ApiServerWatcher.refreshTo_eq_some_iff _).mpr ⟨hcreated,hdeleted⟩,fun _ => FilterManager.succeeds_default,
    fun _ => FilterManager.succeeds_default⟩

theorem succeeds_first {texts : Finset String} (h : SomeIPv4 sampleParseIP texts) :
    ({} : ApiServerWatcher).Succeeds sampleParseIP (resolved texts) :=
  succeeds_resolved (by simpa using h) (by simp [SomeIPv4])

theorem working_start : ({ retry := filterManagerRetries } : FilterManager).Working :=
  ⟨FilterManager.mirrors_init filterManagerRetries,by decide⟩

theorem someIPv4_of_mem {texts : Finset String} (text : String) (hin : text ∈ texts)
    (hv4 : isIPV4 (sampleParseIP text) = true) : SomeIPv4 sampleParseIP texts := fun _ => ⟨text,hin,hv4⟩

end Sample

/-- The IPv4 address of a dual-stack API server is not requested. -/
theorem dual_stack_not_requested :
    ({} : ApiServerWatcher).Succeeds sampleParseIP (resolved {"10.0.0.1","2001:db8::1"}) ∧
    ¬(ApiServerWatcher.step sampleParseIP {} (resolved {"10.0.0.1","2001:db8::1"})).filterManager.c.Holds (.v4 10 0 0 1)
      apiServerReq apiServerReqMetadata := by
  have hsucceeds : ({} : ApiServerWatcher).Succeeds sampleParseIP (resolved {"10.0.0.1","2001:db8::1"}) :=
    succeeds_first (someIPv4_of_mem "10.0.0.1" (by decide) (by decide))
  refine ⟨hsucceeds,?_⟩
  intro h
  obtain ⟨-,-,hreq⟩ := ApiServerWatcher.step_spec working_start hsucceeds
  obtain ⟨hheld | ⟨-,hall | hhas⟩,-⟩ := (hreq (.v4 10 0 0 1) rfl).mp h
  · exact FilterCache.not_holds_reset {} _ _ _ hheld
  · exact absurd (hall "2001:db8::1" (by decide)) (by decide)
  · cases hhas

theorem moved_api_server_requested :
    (Execution.run (ApiServerWatcher.step sampleParseIP) {}
      [resolved {"10.0.0.1"},resolved {"10.0.0.2"}]).filterManager.c.Holds (.v4 10 0 0 2) apiServerReq apiServerReqMetadata := by
  have hfirst := succeeds_first (someIPv4_of_mem "10.0.0.1" (Finset.mem_singleton_self _) (by decide))
  have hcurrent := (ApiServerWatcher.step_spec working_start hfirst).2.1
  refine ((api_server_requested_iff sampleParseIP _ working_start (FilterCache.not_holds_reset {} · _ _)
    [resolved {"10.0.0.1"},resolved {"10.0.0.2"}] ?_).mpr ?_ _ (List.prefix_refl _) _).mpr
      ⟨rfl,"10.0.0.2",by decide,by decide⟩
  · refine ⟨hfirst,succeeds_resolved ?_ ?_,trivial⟩
    · exact someIPv4_of_mem "10.0.0.2" (by rw [hcurrent]; decide) (by decide)
    · exact someIPv4_of_mem "10.0.0.1" (by rw [hcurrent]; decide) (by decide)
  · refine ⟨⟨.inl (by decide),fun text htext => absurd htext (Finset.notMem_empty text)⟩,⟨.inl ?_,?_⟩,trivial⟩
    · rw [hcurrent]
      decide
    · rw [hcurrent]
      intro text htext ⟨_,text',htext',heq⟩
      have h : text = "10.0.0.1" := Finset.mem_singleton.mp (Finset.mem_sdiff.mp htext).1
      have h' : text' = "10.0.0.2" := Finset.mem_singleton.mp htext'
      subst h h'
      exact absurd heq (by decide)

end Retina.Watchers
