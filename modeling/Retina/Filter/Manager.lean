import Retina.Filter.Requests
import Retina.Filter.KernelMap
import Retina.Library.Retry

/-! # The filter manager

`pkg/managers/filtermanager/manager_linux.go`. A request first changes the cache and
then the kernel, and the whole is repeated while the kernel refuses. The answers of
the kernel are numbered by the attempts.
-/
namespace Retina.Filter
open Cache (NetIP)

structure FilterManager where
  c : FilterCache := {}
  fm : FilterMap := {}
  retry : ℕ

namespace FilterCache
variable (r : Requestor) (m : RequestMetadata)

/-- The first loop of `AddIPs`: requests for known addresses are entered, the other addresses collected. -/
def addKnown : FilterCache → List NetIP → FilterCache × List NetIP
  | c,[] => (c,[])
  | c,ip :: ips =>
    if c.hasKey ip then addKnown (c.addIP ip r m) ips
    else ((addKnown c ips).1,ip :: (addKnown c ips).2)

def addAll (c : FilterCache) (ips : List NetIP) : FilterCache := ips.foldl (fun c ip => c.addIP ip r m) c

/-- The first loop of `DeleteIPs`: the addresses that leave the cache are collected. -/
def deleteAll : FilterCache → List NetIP → FilterCache × List NetIP
  | c,[] => (c,[])
  | c,ip :: ips =>
    if (c.deleteIP ip r m).2 then
      ((deleteAll (c.deleteIP ip r m).1 ips).1,ip :: (deleteAll (c.deleteIP ip r m).1 ips).2)
    else deleteAll (c.deleteIP ip r m).1 ips

end FilterCache

namespace FilterManager
variable (ips : List NetIP) (r : Requestor) (m : RequestMetadata)

def tryAdd (answer : KernelAnswer) (f : FilterManager) : FilterManager × Option String :=
  match f.c.addKnown r m ips with
  | (c,[]) => ({ f with c },none)
  | (c,ipsToAdd) =>
    match f.fm.add ipsToAdd answer with
    | (fm,some err) => ({ f with c, fm },some err)
    | (fm,none) => ({ f with c := c.addAll r m ipsToAdd, fm },none)

def addIPs (f : FilterManager) (answers : ℕ → KernelAnswer) : FilterManager × Option String :=
  Retina.retry (fun i => tryAdd ips r m (answers i)) f.retry f

/-- After an error the addresses go back into the cache. -/
def tryDelete (answer : KernelAnswer) (f : FilterManager) : FilterManager × Option String :=
  match f.c.deleteAll r m ips with
  | (c,[]) => ({ f with c },none)
  | (c,ipsToDelete) =>
    match f.fm.delete ipsToDelete answer with
    | (fm,some err) => ({ f with c := c.addAll r m ipsToDelete, fm },some err)
    | (fm,none) => ({ f with c, fm },none)

def deleteIPs (f : FilterManager) (answers : ℕ → KernelAnswer) : FilterManager × Option String :=
  Retina.retry (fun i => tryDelete ips r m (answers i)) f.retry f

def hasIP (f : FilterManager) (ip : NetIP) : Bool := f.c.hasKey ip

def reset (f : FilterManager) (order : FiniteMap.Order NetIP) (answer : KernelAnswer) :
    FilterManager × Option String :=
  match f.c.ips order with
  | [] => (f,none)
  | ipsToDelete =>
    match f.fm.delete ipsToDelete answer with
    | (fm,some err) => ({ f with fm },some err)
    | (fm,none) => ({ f with c := f.c.reset, fm },none)

end FilterManager

/-! ## The loops over the cache -/

namespace FilterCache
variable {r : Requestor} {m : RequestMetadata}

theorem hasKey_addIP_of_hasKey {c : FilterCache} {ip : NetIP} (h : c.hasKey ip = true) (r : Requestor)
    (m : RequestMetadata) (ip' : NetIP) : (c.addIP ip r m).hasKey ip' = c.hasKey ip' := by
  rw [Bool.eq_iff_iff, hasKey_iff, hasKey_iff]
  simp only [holds_addIP]
  constructor
  · rintro ⟨r',m',h' | ⟨rfl,-,-⟩⟩
    · exact ⟨r',m',h'⟩
    · exact (hasKey_iff c ip').mp h
  · rintro ⟨r',m',h'⟩
    exact ⟨r',m',.inl h'⟩

theorem addKnown_snd (c : FilterCache) (ips : List NetIP) :
    (c.addKnown r m ips).2 = ips.filter fun ip => !c.hasKey ip := by
  induction ips generalizing c with
  | nil => rfl
  | cons ip ips ih =>
    rw [addKnown]
    split
    · next h => simp [ih, h, hasKey_addIP_of_hasKey h]
    · next h => simp [ih, h]

theorem holds_addKnown (c : FilterCache) (ips : List NetIP) (ip' : NetIP) (r' : Requestor) (m' : RequestMetadata) :
    (c.addKnown r m ips).1.Holds ip' r' m' ↔
      c.Holds ip' r' m' ∨ ip' ∈ ips ∧ c.hasKey ip' = true ∧ r' = r ∧ m' = m := by
  induction ips generalizing c with
  | nil => simp [addKnown]
  | cons ip ips ih =>
    rw [addKnown]
    split
    · next h =>
      rw [ih, holds_addIP, hasKey_addIP_of_hasKey h]
      by_cases hip : ip' = ip
      · subst hip
        simp only [h, List.mem_cons]
        tauto
      · simp [hip]
    · next h =>
      rw [ih]
      by_cases hip : ip' = ip
      · subst hip
        simp [h]
      · simp [hip]

theorem hasKey_addKnown (c : FilterCache) (ips : List NetIP) (ip : NetIP) :
    (c.addKnown r m ips).1.hasKey ip = c.hasKey ip := by
  rw [Bool.eq_iff_iff, hasKey_iff, hasKey_iff]
  simp only [holds_addKnown]
  constructor
  · rintro ⟨r',m',h | ⟨-,h,-,-⟩⟩
    · exact ⟨r',m',h⟩
    · exact (hasKey_iff c ip).mp h
  · rintro ⟨r',m',h⟩
    exact ⟨r',m',.inl h⟩

theorem holds_addAll (c : FilterCache) (ips : List NetIP) (ip' : NetIP) (r' : Requestor) (m' : RequestMetadata) :
    (c.addAll r m ips).Holds ip' r' m' ↔ c.Holds ip' r' m' ∨ ip' ∈ ips ∧ r' = r ∧ m' = m := by
  induction ips generalizing c with
  | nil => simp [addAll]
  | cons ip ips ih =>
    have h := ih (c.addIP ip r m)
    rw [addAll] at h ⊢
    rw [List.foldl_cons, h, holds_addIP, List.mem_cons]
    tauto

def Shared (c : FilterCache) (ip : NetIP) (r : Requestor) (m : RequestMetadata) : Prop :=
  ∃ r' m', c.Holds ip r' m' ∧ ¬(r' = r ∧ m' = m)

theorem deleteIP_eq_true_iff_not_shared (c : FilterCache) (ip : NetIP) (r : Requestor) (m : RequestMetadata) :
    (c.deleteIP ip r m).2 = true ↔ c.Holds ip r m ∧ ¬c.Shared ip r m := by
  rw [deleteIP_eq_true_iff, Shared]
  push Not
  rfl

theorem holds_deleteAll (c : FilterCache) (ips : List NetIP) (ip' : NetIP) (r' : Requestor) (m' : RequestMetadata) :
    (c.deleteAll r m ips).1.Holds ip' r' m' ↔ c.Holds ip' r' m' ∧ ¬(ip' ∈ ips ∧ r' = r ∧ m' = m) := by
  induction ips generalizing c with
  | nil => simp [deleteAll]
  | cons ip ips ih =>
    have h : ((c.deleteIP ip r m).1.deleteAll r m ips).1.Holds ip' r' m' ↔
        c.Holds ip' r' m' ∧ ¬(ip' ∈ ip :: ips ∧ r' = r ∧ m' = m) := by
      rw [ih, holds_deleteIP, List.mem_cons]
      tauto
    rw [deleteAll]
    split <;> exact h

/-- An address is collected if the request was its only one. -/
theorem mem_deleteAll (c : FilterCache) (ips : List NetIP) (ip' : NetIP) :
    ip' ∈ (c.deleteAll r m ips).2 ↔ ip' ∈ ips ∧ c.Holds ip' r m ∧ ¬c.Shared ip' r m := by
  induction ips generalizing c with
  | nil => simp [deleteAll]
  | cons ip ips ih =>
    have hflag := deleteIP_eq_true_iff_not_shared c ip r m
    have hrest : ip' ≠ ip → (ip' ∈ ((c.deleteIP ip r m).1.deleteAll r m ips).2 ↔
        ip' ∈ ips ∧ c.Holds ip' r m ∧ ¬c.Shared ip' r m) := by
      intro hip
      simp only [ih, Shared, holds_deleteIP, hip, false_and, not_false_eq_true, and_true]
    rw [deleteAll]
    by_cases hip : ip' = ip
    · subst hip
      have hself : ip' ∉ ((c.deleteIP ip' r m).1.deleteAll r m ips).2 := by simp [ih, holds_deleteIP]
      split
      · next h => simpa using hflag.mp h
      · next h =>
        refine iff_of_false hself ?_
        rintro ⟨-,h'⟩
        exact h (hflag.mpr h')
    · split <;> simp [hip, hrest hip]

theorem nodup_deleteAll (c : FilterCache) (ips : List NetIP) : (c.deleteAll r m ips).2.Nodup := by
  induction ips generalizing c with
  | nil => exact List.nodup_nil
  | cons ip ips ih =>
    rw [deleteAll]
    split
    · refine List.nodup_cons.mpr ⟨?_,ih _⟩
      simp [mem_deleteAll, holds_deleteIP]
    · exact ih _

end FilterCache

/-! ## One attempt -/

namespace FilterManager
variable {ips : List NetIP} {r : Requestor} {m : RequestMetadata} {answer : KernelAnswer} {f f' : FilterManager}

theorem tryAdd_failed {err : String} (h : tryAdd ips r m answer f = (f',some err)) :
    f'.c = (f.c.addKnown r m ips).1 ∧ f.fm.add (f.c.addKnown r m ips).2 answer = (f'.fm,some err) := by
  rw [tryAdd] at h
  rcases hknown : f.c.addKnown r m ips with ⟨c,_ | ⟨ip,rest⟩⟩
  · simp [hknown] at h
  · rcases hadd : f.fm.add (ip :: rest) answer with ⟨fm,_ | err'⟩
    · simp [hknown, hadd] at h
    · simp only [hknown, hadd, Prod.mk.injEq] at h
      obtain ⟨rfl,herr⟩ := h
      exact ⟨rfl,by rw [herr]⟩

theorem tryAdd_done (h : tryAdd ips r m answer f = (f',none)) :
    f'.c = (f.c.addKnown r m ips).1.addAll r m (f.c.addKnown r m ips).2 ∧
      ((f.c.addKnown r m ips).2 = [] ∧ f'.fm = f.fm ∨ f.fm.add (f.c.addKnown r m ips).2 answer = (f'.fm,none)) := by
  rw [tryAdd] at h
  rcases hknown : f.c.addKnown r m ips with ⟨c,_ | ⟨ip,rest⟩⟩
  · simp only [hknown, Prod.mk.injEq] at h
    obtain ⟨rfl,-⟩ := h
    exact ⟨rfl,.inl ⟨rfl,rfl⟩⟩
  · rcases hadd : f.fm.add (ip :: rest) answer with ⟨fm,_ | err'⟩
    · simp only [hknown, hadd, Prod.mk.injEq] at h
      obtain ⟨rfl,-⟩ := h
      exact ⟨rfl,.inr rfl⟩
    · simp [hknown, hadd] at h

theorem tryDelete_failed {err : String} (h : tryDelete ips r m answer f = (f',some err)) :
    f'.c = (f.c.deleteAll r m ips).1.addAll r m (f.c.deleteAll r m ips).2 ∧
      f.fm.delete (f.c.deleteAll r m ips).2 answer = (f'.fm,some err) := by
  rw [tryDelete] at h
  rcases hgone : f.c.deleteAll r m ips with ⟨c,_ | ⟨ip,rest⟩⟩
  · simp [hgone] at h
  · rcases hdel : f.fm.delete (ip :: rest) answer with ⟨fm,_ | err'⟩
    · simp [hgone, hdel] at h
    · simp only [hgone, hdel, Prod.mk.injEq] at h
      obtain ⟨rfl,herr⟩ := h
      exact ⟨rfl,by rw [herr]⟩

theorem tryDelete_done (h : tryDelete ips r m answer f = (f',none)) :
    f'.c = (f.c.deleteAll r m ips).1 ∧
      ((f.c.deleteAll r m ips).2 = [] ∧ f'.fm = f.fm ∨ f.fm.delete (f.c.deleteAll r m ips).2 answer = (f'.fm,none)) := by
  rw [tryDelete] at h
  rcases hgone : f.c.deleteAll r m ips with ⟨c,_ | ⟨ip,rest⟩⟩
  · simp only [hgone, Prod.mk.injEq] at h
    obtain ⟨rfl,-⟩ := h
    exact ⟨rfl,.inl ⟨rfl,rfl⟩⟩
  · rcases hdel : f.fm.delete (ip :: rest) answer with ⟨fm,_ | err'⟩
    · simp only [hgone, hdel, Prod.mk.injEq] at h
      obtain ⟨rfl,-⟩ := h
      exact ⟨rfl,.inr rfl⟩
    · simp [hgone, hdel] at h

end FilterManager

/-! ## The requests after a call -/

namespace FilterCache
variable {c : FilterCache} (ips : List NetIP) (r : Requestor) (m : RequestMetadata)

theorem holds_addKnown_addAll (ip' : NetIP) (r' : Requestor) (m' : RequestMetadata) :
    ((c.addKnown r m ips).1.addAll r m (c.addKnown r m ips).2).Holds ip' r' m' ↔
      c.Holds ip' r' m' ∨ ip' ∈ ips ∧ r' = r ∧ m' = m := by
  rw [holds_addAll, holds_addKnown, addKnown_snd, List.mem_filter]
  cases c.hasKey ip' <;> simp

/-- The request is lost where another one keeps the address. -/
theorem holds_deleteAll_addAll (ip' : NetIP) (r' : Requestor) (m' : RequestMetadata) :
    ((c.deleteAll r m ips).1.addAll r m (c.deleteAll r m ips).2).Holds ip' r' m' ↔
      c.Holds ip' r' m' ∧ ¬((r' = r ∧ m' = m) ∧ ip' ∈ ips ∧ c.Shared ip' r m) := by
  rw [holds_addAll, holds_deleteAll, mem_deleteAll]
  by_cases hreq : r' = r ∧ m' = m
  · obtain ⟨rfl,rfl⟩ := hreq
    tauto
  · simp [hreq]

theorem hasKey_deleteAll (ip : NetIP) :
    (c.deleteAll r m ips).1.hasKey ip = true ↔ c.hasKey ip = true ∧ ip ∉ (c.deleteAll r m ips).2 := by
  simp only [hasKey_iff, holds_deleteAll, mem_deleteAll]
  constructor
  · rintro ⟨r',m',hheld,hnot⟩
    refine ⟨⟨r',m',hheld⟩,?_⟩
    rintro ⟨hip,-,hshared⟩
    exact hshared ⟨r',m',hheld,fun hreq => hnot ⟨hip,hreq⟩⟩
  · rintro ⟨⟨r',m',hheld⟩,hnot⟩
    by_cases hreq : ip ∈ ips ∧ r' = r ∧ m' = m
    · obtain ⟨hip,rfl,rfl⟩ := hreq
      obtain ⟨r₁,m₁,hheld₁,hne⟩ : c.Shared ip r' m' := by tauto
      exact ⟨r₁,m₁,hheld₁,fun h => hne h.2⟩
    · exact ⟨r',m',hheld,hreq⟩

theorem hasKey_addAll (ip : NetIP) :
    (c.addAll r m ips).hasKey ip = true ↔ c.hasKey ip = true ∨ ip ∈ ips := by
  simp only [hasKey_iff, holds_addAll]
  constructor
  · rintro ⟨r',m',hheld | ⟨hip,-,-⟩⟩
    · exact .inl ⟨r',m',hheld⟩
    · exact .inr hip
  · rintro (⟨r',m',hheld⟩ | hip)
    · exact ⟨r',m',.inl hheld⟩
    · exact ⟨r,m,.inr ⟨hip,rfl,rfl⟩⟩

theorem hasKey_of_mem_deleteAll {ip : NetIP} (h : ip ∈ (c.deleteAll r m ips).2) : c.hasKey ip = true := by
  rw [mem_deleteAll] at h
  exact (hasKey_iff c ip).mpr ⟨r,m,h.2.1⟩

theorem hasKey_deleteAll_addAll (ip : NetIP) :
    ((c.deleteAll r m ips).1.addAll r m (c.deleteAll r m ips).2).hasKey ip = c.hasKey ip := by
  rw [Bool.eq_iff_iff, hasKey_addAll, hasKey_deleteAll]
  have hkey : ip ∈ (c.deleteAll r m ips).2 → c.hasKey ip = true := hasKey_of_mem_deleteAll ips r m
  tauto

end FilterCache

namespace FilterManager
variable {ips : List NetIP} {r : Requestor} {m : RequestMetadata} {answers : ℕ → KernelAnswer} {f : FilterManager}

theorem holds_addIPs_of_error {err : String} (h : (f.addIPs ips r m answers).2 = some err) (ip' : NetIP)
    (r' : Requestor) (m' : RequestMetadata) : (f.addIPs ips r m answers).1.c.Holds ip' r' m' ↔
      f.c.Holds ip' r' m' ∨ ip' ∈ ips ∧ f.c.hasKey ip' = true ∧ r' = r ∧ m' = m := by
  have hsame : (f.addIPs ips r m answers).1.c.hasKey ip' = f.c.hasKey ip' ∧
      ((f.addIPs ips r m answers).1.c.Holds ip' r' m' ↔
        f.c.Holds ip' r' m' ∨ ip' ∈ ips ∧ f.c.hasKey ip' = true ∧ r' = r ∧ m' = m) := by
    refine Retry.of_error (Q := fun g => g.c.hasKey ip' = f.c.hasKey ip' ∧ (g.c.Holds ip' r' m' ↔ _)) ?_ ?_ h
    · intro f₁ e hfailed
      rw [(tryAdd_failed hfailed).1, FilterCache.hasKey_addKnown, FilterCache.holds_addKnown]
      exact ⟨rfl,Iff.rfl⟩
    · rintro j f₁ f₂ e ⟨hkey,hholds⟩ hfailed
      rw [(tryAdd_failed hfailed).1, FilterCache.hasKey_addKnown, FilterCache.holds_addKnown, hkey, hholds]
      exact ⟨rfl,by tauto⟩
  exact hsame.2

theorem holds_deleteIPs_of_error {err : String} (h : (f.deleteIPs ips r m answers).2 = some err) (ip' : NetIP)
    (r' : Requestor) (m' : RequestMetadata) : (f.deleteIPs ips r m answers).1.c.Holds ip' r' m' ↔
      f.c.Holds ip' r' m' ∧ ¬((r' = r ∧ m' = m) ∧ ip' ∈ ips ∧ f.c.Shared ip' r m) := by
  revert r' m'
  refine Retry.of_error (Q := fun g => ∀ r' m', g.c.Holds ip' r' m' ↔
    f.c.Holds ip' r' m' ∧ ¬((r' = r ∧ m' = m) ∧ ip' ∈ ips ∧ f.c.Shared ip' r m)) ?_ ?_ h
  · intro f₁ e hfailed r' m'
    rw [(tryDelete_failed hfailed).1, FilterCache.holds_deleteAll_addAll]
  · intro j f₁ f₂ e hholds hfailed r' m'
    -- A failed attempt keeps the other requests for the address.
    have hshared : f₁.c.Shared ip' r m ↔ f.c.Shared ip' r m := by
      refine exists_congr fun r₁ => exists_congr fun m₁ => ?_
      rw [hholds]
      tauto
    rw [(tryDelete_failed hfailed).1, FilterCache.holds_deleteAll_addAll, hshared, hholds]
    tauto

def SameRequests (f f' : FilterManager) : Prop := ∀ ip r m, f'.c.Holds ip r m ↔ f.c.Holds ip r m

/-- A failed call leaves the requests alone exactly if the addresses it shares with other requests make no
difference: for an addition the known addresses have this request, for a deletion those that have it have no other. -/
theorem failed_call_keeps_requests_iff (f : FilterManager) (ips : List NetIP) (r : Requestor) (m : RequestMetadata)
    (answers : ℕ → KernelAnswer) :
    ((f.addIPs ips r m answers).2 ≠ none →
      (f.SameRequests (f.addIPs ips r m answers).1 ↔ ∀ ip ∈ ips, f.c.hasKey ip = true → f.c.Holds ip r m)) ∧
    ((f.deleteIPs ips r m answers).2 ≠ none →
      (f.SameRequests (f.deleteIPs ips r m answers).1 ↔
        ∀ ip ∈ ips, f.c.Holds ip r m → ¬f.c.Shared ip r m)) := by
  constructor
  · intro herr
    obtain ⟨err,herr⟩ := Option.ne_none_iff_exists'.mp herr
    have hholds := holds_addIPs_of_error herr
    constructor
    · intro hsame ip hip hkey
      exact (hsame ip r m).mp ((hholds ip r m).mpr (.inr ⟨hip,hkey,rfl,rfl⟩))
    · intro hall ip r' m'
      rw [hholds]
      refine ⟨?_,.inl⟩
      rintro (h | ⟨hip,hkey,rfl,rfl⟩)
      · exact h
      · exact hall ip hip hkey
  · intro herr
    obtain ⟨err,herr⟩ := Option.ne_none_iff_exists'.mp herr
    have hholds := holds_deleteIPs_of_error herr
    constructor
    · intro hsame ip hip hself hshared
      exact ((hholds ip r m).mp ((hsame ip r m).mpr hself)).2 ⟨⟨rfl,rfl⟩,hip,hshared⟩
    · intro hall ip r' m'
      rw [hholds]
      refine ⟨And.left,fun h => ⟨h,?_⟩⟩
      rintro ⟨⟨rfl,rfl⟩,hip,hshared⟩
      exact hall ip hip h hshared

section Sample

def sampleManager : FilterManager := { retry := 1 }

def host (d : BitVec 8) : NetIP := .v4 10 0 0 d

def accepting : ℕ → KernelAnswer := fun _ => {}

def refusing (applied : ℕ) : ℕ → KernelAnswer := fun _ => { batch := .failed applied "argument list too long" }

def sharing : FilterManager :=
  (((sampleManager.addIPs [host 1,host 2] "trace" ⟨"rule"⟩ accepting).1).addIPs [host 2] "metricModule" ⟨"pod"⟩
    accepting).1

end Sample

theorem failed_calls_change_requests :
    (sharing.addIPs [host 1,host 3] "metricModule" ⟨"pod"⟩ (refusing 0)).2 ≠ none ∧
    ¬sharing.SameRequests (sharing.addIPs [host 1,host 3] "metricModule" ⟨"pod"⟩ (refusing 0)).1 ∧
    (sharing.deleteIPs [host 1,host 2] "trace" ⟨"rule"⟩ (refusing 0)).2 ≠ none ∧
    ¬sharing.SameRequests (sharing.deleteIPs [host 1,host 2] "trace" ⟨"rule"⟩ (refusing 0)).1 := by
  refine ⟨by decide,?_,by decide,?_⟩
  · intro h
    exact absurd (h (host 1) "metricModule" ⟨"pod"⟩) (by decide)
  · intro h
    exact absurd (h (host 2) "trace" ⟨"rule"⟩) (by decide)

theorem failed_call_keeps_requests_sharing :
    sharing.SameRequests (sharing.addIPs [host 2,host 3] "metricModule" ⟨"pod"⟩ (refusing 1)).1 ∧
    sharing.SameRequests (sharing.deleteIPs [host 1] "trace" ⟨"rule"⟩ (refusing 1)).1 := by
  constructor
  · refine ((failed_call_keeps_requests_iff sharing [host 2,host 3] "metricModule" ⟨"pod"⟩ (refusing 1)).1
      (by decide)).mpr ?_
    decide
  · refine ((failed_call_keeps_requests_iff sharing [host 1] "trace" ⟨"rule"⟩ (refusing 1)).2 (by decide)).mpr ?_
    intro ip hip _ hshared
    rw [List.mem_singleton] at hip
    subst hip
    have hkey : (sharing.c.deleteIP (host 1) "trace" ⟨"rule"⟩).2 = true := by decide
    exact ((FilterCache.deleteIP_eq_true_iff_not_shared _ _ _ _).mp hkey).2 hshared

end FilterManager

end Retina.Filter
