import Retina.Filter.Manager
import Retina.Library.Execution

/-! # The kernel holds the keys of the requested addresses

A call that fails half way leaves the kernel between two sets of keys. An addition
that is repeated until it succeeds recovers from that. A deletion does not, since
the address is put back into the cache and the cache then stands for the kernel.
-/
namespace Retina.Filter
open Cache (NetIP)

namespace FilterManager

structure Mirrors (f : FilterManager) : Prop where
  cached : ∀ ip, f.c.hasKey ip = true → ∃ key ∈ f.fm.kfm, mapKey ip = .ok key
  mapped : ∀ key ∈ f.fm.kfm, ∃ ip, f.c.hasKey ip = true ∧ mapKey ip = .ok key

variable {f f' : FilterManager}

theorem Mirrors.of_eq (hf : f.Mirrors) (hkey : ∀ ip, f'.c.hasKey ip = f.c.hasKey ip) (hkfm : f'.fm.kfm = f.fm.kfm) :
    f'.Mirrors := by
  constructor
  · intro ip hip
    rw [hkey] at hip
    rw [hkfm]
    exact hf.cached ip hip
  · intro key hmem
    rw [hkfm] at hmem
    obtain ⟨ip,hip,hmap⟩ := hf.mapped key hmem
    exact ⟨ip,by rw [hkey, hip],hmap⟩

theorem Mirrors.mem_iff (hf : f.Mirrors) {ip : NetIP} {key : FilterMapKey} (hmap : mapKey ip = .ok key) :
    key ∈ f.fm.kfm ↔ f.c.hasKey ip = true := by
  constructor
  · intro hmem
    obtain ⟨ip',hip',hmap'⟩ := hf.mapped key hmem
    rw [mapKey_inj hmap hmap']
    exact hip'
  · intro hip
    obtain ⟨key',hmem,hmap'⟩ := hf.cached ip hip
    rw [hmap, Except.ok.injEq] at hmap'
    rw [hmap']
    exact hmem

theorem Mirrors.mapKeys_of_cached (hf : f.Mirrors) {ips : List NetIP} (hips : ∀ ip ∈ ips, f.c.hasKey ip = true) :
    ∃ keys, mapKeys ips = .ok keys ∧ ∀ key ∈ keys, key ∈ f.fm.kfm := by
  obtain ⟨keys,hkeys⟩ := mapKeys_of_forall fun ip hip => (hf.cached ip (hips ip hip)).imp fun _ h => h.2
  refine ⟨keys,hkeys,?_⟩
  intro key hkey
  obtain ⟨ip,hip,hmap⟩ := (mem_mapKeys hkeys key).mp hkey
  exact (hf.mem_iff hmap).mpr (hips ip hip)

theorem Mirrors.remove (hf : f.Mirrors) {gone : List NetIP} {keys : List FilterMapKey} (hkeys : mapKeys gone = .ok keys)
    (hkey : ∀ ip, f'.c.hasKey ip = true ↔ f.c.hasKey ip = true ∧ ip ∉ gone)
    (hkfm : f'.fm.kfm = f.fm.kfm \ keys.toFinset) : f'.Mirrors := by
  constructor
  · intro ip hip
    rw [hkey] at hip
    obtain ⟨key,hmem,hmap⟩ := hf.cached ip hip.1
    refine ⟨key,?_,hmap⟩
    rw [hkfm, Finset.mem_sdiff, List.mem_toFinset, mem_mapKeys hkeys]
    refine ⟨hmem,?_⟩
    rintro ⟨ip',hip',hmap'⟩
    exact hip.2 (mapKey_inj hmap hmap' ▸ hip')
  · intro key hmem
    rw [hkfm, Finset.mem_sdiff, List.mem_toFinset, mem_mapKeys hkeys] at hmem
    obtain ⟨ip,hip,hmap⟩ := hf.mapped key hmem.1
    exact ⟨ip,(hkey ip).mpr ⟨hip,fun hgone => hmem.2 ⟨ip,hgone,hmap⟩⟩,hmap⟩

/-! ## Additions -/

/-- What failed additions of the unknown addresses among `ips` have made of `f`. -/
structure Pending (f : FilterManager) (ips : List NetIP) (f' : FilterManager) : Prop where
  hasKey : ∀ ip, f'.c.hasKey ip = f.c.hasKey ip
  kept : f.fm.kfm ⊆ f'.fm.kfm
  started : ∀ key ∈ f'.fm.kfm, key ∈ f.fm.kfm ∨ ∃ ip ∈ ips, mapKey ip = .ok key

/-- What failed additions have made of `f` if they left the kernel alone. -/
def Untouched (f f' : FilterManager) : Prop :=
  (∀ ip, f'.c.hasKey ip = f.c.hasKey ip) ∧ f'.fm.kfm = f.fm.kfm

theorem Untouched.pending (h : f.Untouched f') (ips : List NetIP) : f.Pending ips f' :=
  ⟨h.1,by rw [h.2],fun key hkey => .inl (h.2 ▸ hkey)⟩

theorem Untouched.rfl : f.Untouched f := ⟨fun _ => Eq.refl _,Eq.refl _⟩

section Add
variable {ips : List NetIP} {r : Requestor} {m : RequestMetadata} {answer : KernelAnswer} {g g' : FilterManager}

theorem hasKey_tryAdd_failed {err : String} (h : tryAdd ips r m answer g = (g',some err)) (ip : NetIP) :
    g'.c.hasKey ip = g.c.hasKey ip := by
  rw [(tryAdd_failed h).1, FilterCache.hasKey_addKnown]

theorem Untouched.tryAdd_failed {err : String} (hg : f.Untouched g) (h : tryAdd ips r m answer g = (g',some err))
    (hnone : answer.Clean ∨ ∃ e, mapKeys (g.c.addKnown r m ips).2 = .error e) : f.Untouched g' := by
  have hadd := (FilterManager.tryAdd_failed h).2
  refine ⟨fun ip => (hasKey_tryAdd_failed h ip).trans (hg.1 ip),?_⟩
  rw [← hg.2]
  rcases hnone with hclean | ⟨e,he⟩
  · have hkfm := FilterMap.add_clean hclean (congrArg Prod.snd hadd)
    rwa [hadd] at hkfm
  · rw [FilterMap.add_of_error he, Prod.mk.injEq] at hadd
    rw [← hadd.1]

theorem Pending.tryAdd_failed {err : String} (hg : f.Pending ips g) (h : tryAdd ips r m answer g = (g',some err)) :
    f.Pending ips g' := by
  have hadd := (FilterManager.tryAdd_failed h).2
  have hfm : (g.fm.add (g.c.addKnown r m ips).2 answer).1 = g'.fm := congrArg Prod.fst hadd
  cases hkeys : mapKeys (g.c.addKnown r m ips).2 with
  | error e =>
    rw [FilterMap.add_of_error hkeys] at hfm
    exact ⟨fun ip => (hasKey_tryAdd_failed h ip).trans (hg.hasKey ip),hfm ▸ hg.kept,hfm ▸ hg.started⟩
  | ok keys =>
    obtain ⟨hlow,hhigh⟩ := FilterMap.add_between (f := g.fm) hkeys
    rw [hfm] at hlow hhigh
    refine ⟨fun ip => (hasKey_tryAdd_failed h ip).trans (hg.hasKey ip),hg.kept.trans hlow,?_⟩
    intro key hkey
    rcases (mem_putKeys keys g.fm.kfm key).mp (hhigh hkey) with hold | hnew
    · exact hg.started key hold
    · obtain ⟨ip,hip,hmap⟩ := (mem_mapKeys hkeys key).mp hnew
      rw [FilterCache.addKnown_snd] at hip
      exact .inr ⟨ip,List.mem_of_mem_filter hip,hmap⟩

/-- The attempt that succeeds completes what the failed ones have started. -/
theorem Mirrors.tryAdd_done (hf : f.Mirrors) (hg : f.Pending ips g) (h : tryAdd ips r m answer g = (g',none)) :
    g'.Mirrors := by
  obtain ⟨hc,hfm⟩ := FilterManager.tryAdd_done h
  have hnew : ∃ keys, mapKeys (g.c.addKnown r m ips).2 = .ok keys ∧ g'.fm.kfm = putKeys keys g.fm.kfm := by
    rcases hfm with ⟨hnil,hsame⟩ | hadd
    · exact ⟨[],by rw [hnil]; rfl,by simp [hsame, putKeys]⟩
    · have hdone := FilterMap.add_of_none (congrArg Prod.snd hadd)
      rwa [hadd] at hdone
  obtain ⟨keys,hkeys,hkfm⟩ := hnew
  have hkey : ∀ ip, g'.c.hasKey ip = true ↔ f.c.hasKey ip = true ∨ ip ∈ (g.c.addKnown r m ips).2 := by
    intro ip
    rw [hc, FilterCache.hasKey_addAll, FilterCache.hasKey_addKnown, hg.hasKey]
  have hmem : ∀ ip, ip ∈ (g.c.addKnown r m ips).2 ↔ ip ∈ ips ∧ ¬f.c.hasKey ip = true := by
    intro ip
    rw [FilterCache.addKnown_snd, List.mem_filter, hg.hasKey, Bool.not_eq_true', Bool.not_eq_true]
  constructor
  · intro ip hip
    rw [hkfm]
    rcases (hkey ip).mp hip with hold | hadded
    · obtain ⟨key,hin,hmap⟩ := hf.cached ip hold
      exact ⟨key,(mem_putKeys _ _ _).mpr (.inl (hg.kept hin)),hmap⟩
    · obtain ⟨key,hmap⟩ := mapKey_of_mapKeys hkeys hadded
      exact ⟨key,(mem_putKeys _ _ _).mpr (.inr ((mem_mapKeys hkeys key).mpr ⟨ip,hadded,hmap⟩)),hmap⟩
  · intro key hin
    rw [hkfm, mem_putKeys, mem_mapKeys hkeys] at hin
    rcases hin with hin | ⟨ip,hadded,hmap⟩
    · rcases hg.started key hin with hold | ⟨ip,hip,hmap⟩
      · obtain ⟨ip,hip,hmap⟩ := hf.mapped key hold
        exact ⟨ip,(hkey ip).mpr (.inl hip),hmap⟩
      · refine ⟨ip,?_,hmap⟩
        rw [hkey, hmem]
        tauto
    · exact ⟨ip,(hkey ip).mpr (.inr hadded),hmap⟩

end Add

section Calls
variable {ips : List NetIP} {r : Requestor} {m : RequestMetadata} {answers : ℕ → KernelAnswer}

theorem mapKeys_addKnown_congr {g : FilterManager} (hkey : ∀ ip, g.c.hasKey ip = f.c.hasKey ip) :
    (g.c.addKnown r m ips).2 = (f.c.addKnown r m ips).2 := by
  rw [FilterCache.addKnown_snd, FilterCache.addKnown_snd]
  simp only [hkey]

/-- Failed attempts that leave the kernel alone do no harm, whether or not a later attempt succeeds. -/
theorem Mirrors.addIPs_of_untouched (hf : f.Mirrors)
    (hnone : ∀ i < f.retry, (answers i).Clean ∨ ∃ e, mapKeys (f.c.addKnown r m ips).2 = .error e) :
    (f.addIPs ips r m answers).1.Mirrors := by
  have hcases : ((f.addIPs ips r m answers).2 = none → (f.addIPs ips r m answers).1.Mirrors) ∧
      ∀ e, (f.addIPs ips r m answers).2 = some e → f.Untouched (f.addIPs ips r m answers).1 := by
    refine Retry.cases (Q := fun _ => f.Untouched) ?_ ?_ Untouched.rfl fun _ => hf
    · intro j g g' e hj hg h
      refine hg.tryAdd_failed h ?_
      rw [mapKeys_addKnown_congr hg.1]
      exact hnone j hj
    · intro j g g' hj hg h
      exact hf.tryAdd_done (hg.pending ips) h
  cases hres : (f.addIPs ips r m answers).2 with
  | none => exact hcases.1 hres
  | some e =>
    obtain ⟨hkey,hkfm⟩ := hcases.2 e hres
    exact hf.of_eq hkey hkfm

theorem tryAdd_succeeds {answer : KernelAnswer} (hanswer : answer.Succeeds) {keys : List FilterMapKey}
    (hkeys : mapKeys (f.c.addKnown r m ips).2 = .ok keys) : (tryAdd ips r m answer f).2 = none := by
  rcases h : tryAdd ips r m answer f with ⟨f',_ | err⟩
  · rfl
  · have hadd := congrArg Prod.snd (FilterManager.tryAdd_failed h).2
    rw [FilterMap.add_succeeds hanswer hkeys] at hadd
    cases hadd

/-- Nothing the kernel applies before an attempt that succeeds is lost or left over. -/
theorem Mirrors.addIPs_of_succeeds (hf : f.Mirrors) {keys : List FilterMapKey}
    (hkeys : mapKeys (f.c.addKnown r m ips).2 = .ok keys) {k : ℕ} (hk : k < f.retry) (hanswer : (answers k).Succeeds) :
    (f.addIPs ips r m answers).2 = none ∧ (f.addIPs ips r m answers).1.Mirrors := by
  have hpending : ∀ j g g' e, j < f.retry → f.Pending ips g → tryAdd ips r m (answers j) g = (g',some e) →
      f.Pending ips g' := fun _ _ _ _ _ hg h => hg.tryAdd_failed h
  have hdone : (f.addIPs ips r m answers).2 = none := by
    refine Retry.succeeds hpending (Untouched.rfl.pending ips) hk ?_
    intro g hg
    exact tryAdd_succeeds hanswer (mapKeys_addKnown_congr hg.hasKey ▸ hkeys)
  refine ⟨hdone,?_⟩
  exact (Retry.cases (Q := fun _ => f.Pending ips) hpending (fun _ _ _ _ hg h => hf.tryAdd_done hg h)
    (Untouched.rfl.pending ips) fun _ => hf).1 hdone

theorem Mirrors.addIPs (hf : f.Mirrors)
    (h : (∀ i < f.retry, (answers i).Clean) ∨ ∃ i < f.retry, (answers i).Succeeds) :
    (f.addIPs ips r m answers).1.Mirrors := by
  rcases h with hclean | ⟨k,hk,hanswer⟩
  · exact hf.addIPs_of_untouched fun i hi => .inl (hclean i hi)
  · cases hkeys : mapKeys (f.c.addKnown r m ips).2 with
    | error e => exact hf.addIPs_of_untouched fun _ _ => .inr ⟨e,hkeys⟩
    | ok keys => exact (hf.addIPs_of_succeeds hkeys hk hanswer).2

/-! ## Deletions -/

theorem Mirrors.delete_cached (hf : f.Mirrors) {gone : List NetIP} (hgone : ∀ ip ∈ gone, f.c.hasKey ip = true)
    (hnodup : gone.Nodup) : ∃ keys, mapKeys gone = .ok keys ∧ (∀ key ∈ keys, key ∈ f.fm.kfm) ∧ keys.Nodup := by
  obtain ⟨keys,hkeys,hin⟩ := hf.mapKeys_of_cached hgone
  exact ⟨keys,hkeys,hin,nodup_mapKeys hkeys hnodup⟩

theorem Mirrors.tryDelete_failed {answer : KernelAnswer} {err : String} (hf : f.Mirrors) (hclean : answer.Clean)
    (h : tryDelete ips r m answer f = (f',some err)) : f'.Mirrors := by
  obtain ⟨hc,hdel⟩ := FilterManager.tryDelete_failed h
  obtain ⟨keys,hkeys,hin,hnodup⟩ := hf.delete_cached
    (fun ip hip => FilterCache.hasKey_of_mem_deleteAll ips r m hip) (f.c.nodup_deleteAll ips)
  have hcases := FilterMap.delete_clean hkeys hin hnodup hclean
  rw [hdel] at hcases
  refine hf.of_eq (fun ip => by rw [hc, FilterCache.hasKey_deleteAll_addAll]) ?_
  simpa using hcases

theorem Mirrors.tryDelete_done {answer : KernelAnswer} (hf : f.Mirrors) (hclean : answer.Clean)
    (h : tryDelete ips r m answer f = (f',none)) : f'.Mirrors := by
  obtain ⟨hc,hfm⟩ := FilterManager.tryDelete_done h
  obtain ⟨keys,hkeys,hin,hnodup⟩ := hf.delete_cached
    (fun ip hip => FilterCache.hasKey_of_mem_deleteAll ips r m hip) (f.c.nodup_deleteAll ips)
  refine hf.remove hkeys (fun ip => by rw [hc, FilterCache.hasKey_deleteAll]) ?_
  rcases hfm with ⟨hnil,hsame⟩ | hdel
  · rw [hnil] at hkeys
    cases hkeys
    simp [hsame]
  · have hcases := FilterMap.delete_clean hkeys hin hnodup hclean
    rw [hdel] at hcases
    simpa using hcases

theorem Mirrors.tryDelete_succeeds {answer : KernelAnswer} (hf : f.Mirrors) (hanswer : answer.Succeeds) :
    (tryDelete ips r m answer f).2 = none := by
  rcases h : tryDelete ips r m answer f with ⟨f',_ | err⟩
  · rfl
  · obtain ⟨keys,hkeys,hin,hnodup⟩ := hf.delete_cached
      (fun ip hip => FilterCache.hasKey_of_mem_deleteAll ips r m hip) (f.c.nodup_deleteAll ips)
    have hdel := congrArg Prod.snd (FilterManager.tryDelete_failed h).2
    rw [(FilterMap.delete_succeeds hkeys hin hnodup hanswer).2] at hdel
    cases hdel

/-- The answers count up to the first that makes an attempt succeed. -/
theorem Mirrors.deleteIPs (hf : f.Mirrors)
    (hclean : ∀ i < f.retry, (∀ j < i, ¬(answers j).Succeeds) → (answers i).Clean) :
    (f.deleteIPs ips r m answers).1.Mirrors := by
  have hcases : ((f.deleteIPs ips r m answers).2 = none → (f.deleteIPs ips r m answers).1.Mirrors) ∧
      ∀ e, (f.deleteIPs ips r m answers).2 = some e →
        (f.deleteIPs ips r m answers).1.Mirrors ∧ ∀ j < f.retry, ¬(answers j).Succeeds := by
    refine Retry.cases (Q := fun i g => g.Mirrors ∧ ∀ j < i, ¬(answers j).Succeeds) ?_ ?_ ⟨hf,by simp⟩ fun _ => hf
    · rintro i g g' e hi ⟨hg,hfails⟩ h
      refine ⟨hg.tryDelete_failed (hclean i hi hfails) h,?_⟩
      intro j hj hanswer
      rcases Nat.lt_succ_iff_lt_or_eq.mp hj with hlt | rfl
      · exact hfails j hlt hanswer
      · have hnone : (tryDelete ips r m (answers j) g).2 = none := hg.tryDelete_succeeds hanswer
        rw [h] at hnone
        cases hnone
    · rintro i g g' hi ⟨hg,hfails⟩ h
      exact hg.tryDelete_done (hclean i hi hfails) h
  cases hres : (f.deleteIPs ips r m answers).2 with
  | none => exact hcases.1 hres
  | some e => exact (hcases.2 e hres).1

theorem Mirrors.reset (hf : f.Mirrors) (order : FiniteMap.Order NetIP) {answer : KernelAnswer}
    (hclean : answer.Clean) : (f.reset order answer).1.Mirrors := by
  obtain ⟨keys,hkeys,hin,hnodup⟩ := hf.delete_cached (fun ip hip => (f.c.mem_ips ip order).mp hip)
    (order.nodup_list f.c.data.keys)
  have hcases := FilterMap.delete_clean hkeys hin hnodup hclean
  rw [FilterManager.reset]
  rcases hips : f.c.ips order with _ | ⟨ip,ips⟩
  · exact hf
  · rw [hips] at hkeys hcases
    rcases hdel : f.fm.delete (ip :: ips) answer with ⟨fm,_ | err⟩
    · simp only [hdel, reduceCtorEq, exists_false, and_false, or_false, and_true] at hcases ⊢
      refine hf.remove hkeys ?_ hcases
      intro ip'
      rw [← hips, FilterCache.mem_ips, FilterCache.hasKey_iff]
      simp [FilterCache.not_holds_reset]
    · simp only [hdel, reduceCtorEq, and_false, false_or] at hcases ⊢
      exact hf.of_eq (fun _ => Eq.refl _) hcases.1

end Calls

end FilterManager

/-! ## Runs -/

inductive FilterOp where
  | addIPs (ips : List NetIP) (r : Requestor) (m : RequestMetadata) (answers : ℕ → KernelAnswer)
  | deleteIPs (ips : List NetIP) (r : Requestor) (m : RequestMetadata) (answers : ℕ → KernelAnswer)
  | reset (order : FiniteMap.Order NetIP) (answer : KernelAnswer)

namespace FilterManager

def call (f : FilterManager) : FilterOp → FilterManager × Option String
  | .addIPs ips r m answers => f.addIPs ips r m answers
  | .deleteIPs ips r m answers => f.deleteIPs ips r m answers
  | .reset order answer => f.reset order answer

def step (f : FilterManager) (op : FilterOp) : FilterManager := (f.call op).1

/-- No deletion fails half way, and an addition that fails half way is completed by a later attempt. -/
def Recovers (f : FilterManager) : FilterOp → Prop
  | .addIPs _ _ _ answers => (∀ i < f.retry, (answers i).Clean) ∨ ∃ i < f.retry, (answers i).Succeeds
  | .deleteIPs _ _ _ answers => ∀ i < f.retry, (∀ j < i, ¬(answers j).Succeeds) → (answers i).Clean
  | .reset _ answer => answer.Clean

theorem Mirrors.step {f : FilterManager} {op : FilterOp} (hf : f.Mirrors) (h : f.Recovers op) :
    (f.step op).Mirrors := by
  cases op with
  | addIPs ips r m answers => exact hf.addIPs h
  | deleteIPs ips r m answers => exact hf.deleteIPs h
  | reset order answer => exact hf.reset order h

theorem mirrors_init (retry : ℕ) : ({ retry := retry } : FilterManager).Mirrors where
  cached ip hip := by simp [FilterCache.hasKey] at hip
  mapped key hkey := by simp at hkey

/-- Along every such run, whatever the kernel answers, its keys are those of the cached addresses. -/
theorem kernel_mirrors_cache (retry : ℕ) (ops : List FilterOp)
    (hops : Execution.Along step Recovers { retry := retry } ops) (earlier : List FilterOp)
    (hearlier : earlier <+: ops) : (Execution.run step { retry := retry } earlier).Mirrors := by
  obtain ⟨later,rfl⟩ := hearlier
  exact Execution.invariant (I := Mirrors) (P := Recovers) (fun _ _ hs hop => hs.step hop) (mirrors_init retry)
    ((Execution.along_append _ _ _ _).mp hops).1

section Sample

def recovering (applied : ℕ) : ℕ → KernelAnswer
  | 0 => { batch := .failed applied "argument list too long" }
  | _ + 1 => {}

theorem succeeds_default : ({} : KernelAnswer).Succeeds := by
  constructor
  · intro n err h
    cases h
  · intro i
    rfl

def halfDeleted : FilterManager := Execution.run step { retry := 3 } [
  .addIPs [host 1,host 2] "metricModule" ⟨"pod"⟩ accepting,
  .deleteIPs [host 1,host 2] "metricModule" ⟨"pod"⟩ (recovering 1)]

def halfAdded : FilterManager := Execution.run step { retry := 3 } [
  .addIPs [host 1,host 2] "metricModule" ⟨"pod"⟩ (refusing 1)]

end Sample

/-- After a call without error the address that it adds is missing in the kernel, and the one that it deletes is not. -/
theorem kernel_differs_from_cache :
    (halfDeleted.call (.addIPs [host 1] "trace" ⟨"rule"⟩ accepting)).2 = none ∧
    (halfDeleted.step (.addIPs [host 1] "trace" ⟨"rule"⟩ accepting)).c.hasKey (host 1) = true ∧
    ⟨32,ip2int 10 0 0 1⟩ ∉ (halfDeleted.step (.addIPs [host 1] "trace" ⟨"rule"⟩ accepting)).fm.kfm ∧
    (halfAdded.call (.deleteIPs [host 1] "metricModule" ⟨"pod"⟩ accepting)).2 = none ∧
    (halfAdded.step (.deleteIPs [host 1] "metricModule" ⟨"pod"⟩ accepting)).c.hasKey (host 1) = false ∧
    ⟨32,ip2int 10 0 0 1⟩ ∈ (halfAdded.step (.deleteIPs [host 1] "metricModule" ⟨"pod"⟩ accepting)).fm.kfm := by
  decide

theorem kernel_mirrors_cache_recovering :
    (Execution.run step { retry := 2 } [
      .addIPs [host 1,host 2] "metricModule" ⟨"pod"⟩ (recovering 1),
      .deleteIPs [host 1] "metricModule" ⟨"pod"⟩ (recovering 0)]).Mirrors := by
  refine kernel_mirrors_cache 2 _ ?_ _ (List.prefix_refl _)
  refine ⟨?_,?_,trivial⟩
  · exact .inr ⟨1,by decide,succeeds_default⟩
  · intro i hi hfirst
    cases i with
    | zero =>
      refine ⟨?_,fun _ => rfl⟩
      intro n err h
      cases h
      rfl
    | succ i => exact succeeds_default.clean

end FilterManager

end Retina.Filter
