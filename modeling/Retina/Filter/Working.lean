import Retina.Filter.Mirror

/-! # A filter manager that never fails

With a kernel that accepts every call the requests are a set of triples: an
addition puts some in and a deletion takes some out, and no call returns an error.
-/
namespace Retina.Filter
open Cache (NetIP isIPV4)

def Accepts (answers : ℕ → KernelAnswer) : Prop := ∀ i, (answers i).Succeeds

namespace FilterManager

structure Working (f : FilterManager) : Prop where
  mirrors : f.Mirrors
  retries : 0 < f.retry

theorem retry_tryAdd (ips : List NetIP) (r : Requestor) (m : RequestMetadata) (answer : KernelAnswer)
    (f : FilterManager) : (tryAdd ips r m answer f).1.retry = f.retry := by
  rw [tryAdd]
  split
  · rfl
  · split <;> rfl

theorem retry_addIPs (ips : List NetIP) (r : Requestor) (m : RequestMetadata) (answers : ℕ → KernelAnswer)
    (f : FilterManager) : (f.addIPs ips r m answers).1.retry = f.retry := by
  have hcases : ((f.addIPs ips r m answers).2 = none → (f.addIPs ips r m answers).1.retry = f.retry) ∧
      ∀ e, (f.addIPs ips r m answers).2 = some e → (f.addIPs ips r m answers).1.retry = f.retry := by
    refine Retry.cases (Q := fun _ (g : FilterManager) => g.retry = f.retry)
      (R := fun g : FilterManager => g.retry = f.retry) ?_ ?_ rfl fun _ => rfl
    · intro j g g' e _ hg h
      rw [← hg, ← retry_tryAdd ips r m (answers j) g, h]
    · intro j g g' _ hg h
      rw [← hg, ← retry_tryAdd ips r m (answers j) g, h]
  cases h : (f.addIPs ips r m answers).2 with
  | none => exact hcases.1 h
  | some e => exact hcases.2 e h

theorem retry_tryDelete (ips : List NetIP) (r : Requestor) (m : RequestMetadata) (answer : KernelAnswer)
    (f : FilterManager) : (tryDelete ips r m answer f).1.retry = f.retry := by
  rw [tryDelete]
  split
  · rfl
  · split <;> rfl

theorem mapKey_of_isIPV4 {ip : NetIP} (h : isIPV4 ip = true) : ∃ key, mapKey ip = .ok key := by
  cases ip with
  | nil => cases h
  | v4 a b c d => exact ⟨_,rfl⟩
  | v6 addr => cases h

theorem isIPV4_of_mapKey {ip : NetIP} {key : FilterMapKey} (h : mapKey ip = .ok key) : isIPV4 ip = true := by
  cases ip with
  | nil => cases h
  | v4 a b c d => rfl
  | v6 addr => cases h

variable {f : FilterManager} {answers : ℕ → KernelAnswer} {ips : List NetIP}

theorem addIPs_nil (hretry : 0 < f.retry) (r : Requestor) (m : RequestMetadata) :
    f.addIPs [] r m answers = (f,none) := Retry.of_first hretry rfl

section
variable (hf : f.Working) (hanswers : Accepts answers) (r : Requestor) (m : RequestMetadata)
include hf hanswers

theorem Working.addIPs_spec (hips : ∀ ip ∈ ips, isIPV4 ip = true) :
    (f.addIPs ips r m answers).2 = none ∧ (f.addIPs ips r m answers).1.Working ∧
      ∀ ip' r' m', (f.addIPs ips r m answers).1.c.Holds ip' r' m' ↔
        f.c.Holds ip' r' m' ∨ ip' ∈ ips ∧ r' = r ∧ m' = m := by
  have hunknown : ∀ ip ∈ (f.c.addKnown r m ips).2, ∃ key, mapKey ip = .ok key := by
    intro ip hip
    rw [FilterCache.addKnown_snd] at hip
    exact mapKey_of_isIPV4 (hips ip (List.mem_of_mem_filter hip))
  obtain ⟨keys,hkeys⟩ := mapKeys_of_forall hunknown
  have hdone := tryAdd_succeeds (hanswers 0) hkeys
  rw [addIPs, Retry.of_first hf.retries hdone]
  have hpair : tryAdd ips r m (answers 0) f = ((tryAdd ips r m (answers 0) f).1,none) := Prod.ext (Eq.refl _) hdone
  refine ⟨hdone,⟨hf.mirrors.tryAdd_done (Untouched.rfl.pending ips) hpair,?_⟩,?_⟩
  · rw [retry_tryAdd]
    exact hf.retries
  · rw [(tryAdd_done hpair).1]
    exact FilterCache.holds_addKnown_addAll ips r m

theorem Working.addIPs (ips : List NetIP) : (f.addIPs ips r m answers).1.Working := by
  refine ⟨hf.mirrors.addIPs (.inr ⟨0,hf.retries,hanswers 0⟩),?_⟩
  rw [retry_addIPs]
  exact hf.retries

/-- One address that the kernel cannot hold is enough to make the call fail. Only known addresses get the request. -/
theorem Working.addIPs_of_not_all (hips : ¬∀ ip ∈ ips, isIPV4 ip = true) :
    (f.addIPs ips r m answers).2 ≠ none ∧ (f.addIPs ips r m answers).1.Working ∧
      ∀ ip' r' m', (f.addIPs ips r m answers).1.c.Holds ip' r' m' ↔
        f.c.Holds ip' r' m' ∨ ip' ∈ ips ∧ f.c.hasKey ip' = true ∧ r' = r ∧ m' = m := by
  have herror : ∃ e, mapKeys (f.c.addKnown r m ips).2 = .error e := by
    simp only [not_forall] at hips
    obtain ⟨ip,hip,hv4⟩ := hips
    cases hkeys : mapKeys (f.c.addKnown r m ips).2 with
    | error e => exact ⟨e,Eq.refl _⟩
    | ok keys =>
      have hunknown : ip ∈ (f.c.addKnown r m ips).2 := by
        rw [FilterCache.addKnown_snd, List.mem_filter]
        refine ⟨hip,?_⟩
        rw [Bool.not_eq_true']
        by_contra hknown
        rw [Bool.not_eq_false] at hknown
        obtain ⟨key,-,hkey⟩ := hf.mirrors.cached ip hknown
        exact hv4 (isIPV4_of_mapKey hkey)
      obtain ⟨key,hkey⟩ := mapKey_of_mapKeys hkeys hunknown
      exact absurd (isIPV4_of_mapKey hkey) hv4
  have hfails : (f.addIPs ips r m answers).2 ≠ none := by
    refine (Retry.cases (Q := fun _ => f.Untouched) (R := fun _ => False) ?_ ?_ Untouched.rfl ?_).1
    · intro j g g' e hj hg h
      exact hg.tryAdd_failed h (.inl (hanswers j).clean)
    · intro j g g' hj hg h
      obtain ⟨e,he⟩ := herror
      rw [← mapKeys_addKnown_congr hg.1] at he
      rcases (tryAdd_done h).2 with ⟨hnil,-⟩ | hadd
      · rw [hnil] at he
        cases he
      · rw [FilterMap.add_of_error he] at hadd
        exact absurd (congrArg Prod.snd hadd) (Option.some_ne_none _)
    · intro hzero
      exact hf.retries.ne' hzero
  obtain ⟨e,he⟩ := Option.ne_none_iff_exists'.mp hfails
  exact ⟨hfails,hf.addIPs hanswers r m ips,holds_addIPs_of_error he⟩

theorem Working.deleteIPs_spec (ips : List NetIP) :
    (f.deleteIPs ips r m answers).2 = none ∧ (f.deleteIPs ips r m answers).1.Working ∧
      ∀ ip' r' m', (f.deleteIPs ips r m answers).1.c.Holds ip' r' m' ↔
        f.c.Holds ip' r' m' ∧ ¬(ip' ∈ ips ∧ r' = r ∧ m' = m) := by
  have hdone : (tryDelete ips r m (answers 0) f).2 = none := hf.mirrors.tryDelete_succeeds (hanswers 0)
  rw [deleteIPs, Retry.of_first hf.retries hdone]
  have hpair : tryDelete ips r m (answers 0) f = ((tryDelete ips r m (answers 0) f).1,none) := Prod.ext (Eq.refl _) hdone
  refine ⟨hdone,⟨hf.mirrors.tryDelete_done (hanswers 0).clean hpair,?_⟩,?_⟩
  · rw [retry_tryDelete]
    exact hf.retries
  · rw [(tryDelete_done hpair).1]
    exact f.c.holds_deleteAll ips

end

end FilterManager

end Retina.Filter
