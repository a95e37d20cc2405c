import Retina.Cache.Types

/-! # The filter map in the kernel

`pkg/plugin/filter/filter_map_linux.go` over a map of keys in the kernel. How the
kernel answers a call is an input: a batch call may fail after it has applied a
part of its keys or may not be supported, and a single call may fail at any key.
Deleting a key that is absent fails by itself.
-/
namespace Retina.Filter
open Cache (NetIP)

structure FilterMapKey where
  prefixlen : BitVec 32
  data : BitVec 32
deriving DecidableEq

/-- `utils.Ip2int` reads the four bytes in little endian order. -/
def ip2int (a b c d : BitVec 8) : BitVec 32 := d ++ c ++ b ++ a

def mapKey : NetIP → Except String FilterMapKey
  | .v4 a b c d => .ok ⟨32,ip2int a b c d⟩
  | _ => .error "invalid IP address"

def mapKeys : List NetIP → Except String (List FilterMapKey)
  | [] => .ok []
  | ip :: ips =>
    match mapKey ip with
    | .error err => .error err
    | .ok key =>
      match mapKeys ips with
      | .error err => .error err
      | .ok keys => .ok (key :: keys)

inductive BatchAnswer where
  | ok
  | failed (applied : ℕ) (err : String)
  | notSupported
deriving DecidableEq

/-- The answers of the kernel to one attempt: to the batch call, and to the single call for each key. -/
structure KernelAnswer where
  batch : BatchAnswer := .ok
  single : ℕ → Option String := fun _ => none

abbrev KernelKeys := Finset FilterMapKey

def putKeys (keys : List FilterMapKey) (kfm : KernelKeys) : KernelKeys := kfm ∪ keys.toFinset

/-- The kernel deletes key by key and stops at the first that is absent. -/
def deleteKeys (kfm : KernelKeys) : List FilterMapKey → KernelKeys × Option String
  | [] => (kfm,none)
  | key :: keys => if key ∈ kfm then deleteKeys (kfm.erase key) keys else (kfm,some "key does not exist")

def batchUpdate (kfm : KernelKeys) (keys : List FilterMapKey) : BatchAnswer → KernelKeys × Option String
  | .ok => (putKeys keys kfm,none)
  | .failed applied err => (putKeys (keys.take applied) kfm,some err)
  | .notSupported => (kfm,some "not supported")

def batchDelete (kfm : KernelKeys) (keys : List FilterMapKey) : BatchAnswer → KernelKeys × Option String
  | .ok => deleteKeys kfm keys
  | .failed applied err => ((deleteKeys kfm (keys.take applied)).1,some err)
  | .notSupported => (kfm,some "not supported")

def performSingleUpdates (kfm : KernelKeys) (single : ℕ → Option String) :
    List FilterMapKey → KernelKeys × Option String
  | [] => (kfm,none)
  | key :: keys =>
    match single 0 with
    | some err => (kfm,some err)
    | none => performSingleUpdates (insert key kfm) (fun i => single (i + 1)) keys

def performSingleDeletes (kfm : KernelKeys) (single : ℕ → Option String) :
    List FilterMapKey → KernelKeys × Option String
  | [] => (kfm,none)
  | key :: keys =>
    match single 0 with
    | some err => (kfm,some err)
    | none =>
      if key ∈ kfm then performSingleDeletes (kfm.erase key) (fun i => single (i + 1)) keys
      else (kfm,some "key does not exist")

structure FilterMap where
  kfm : KernelKeys := ∅
  batchApiNotSupported : Bool := false

namespace FilterMap

/-- The common shape of `Add` and `Delete`: a batch call, and single calls if the kernel knows no batch calls. -/
def apply (f : FilterMap) (answer : KernelAnswer) (batch : KernelKeys → BatchAnswer → KernelKeys × Option String)
    (singles : KernelKeys → (ℕ → Option String) → KernelKeys × Option String) : FilterMap × Option String :=
  if f.batchApiNotSupported = false then
    if answer.batch = .notSupported then
      ({ kfm := (singles (batch f.kfm answer.batch).1 answer.single).1, batchApiNotSupported := true },
        (singles (batch f.kfm answer.batch).1 answer.single).2)
    else ({ f with kfm := (batch f.kfm answer.batch).1 },(batch f.kfm answer.batch).2)
  else ({ f with kfm := (singles f.kfm answer.single).1 },(singles f.kfm answer.single).2)

def add (f : FilterMap) (ips : List NetIP) (answer : KernelAnswer) : FilterMap × Option String :=
  match mapKeys ips with
  | .error err => (f,some err)
  | .ok keys => f.apply answer (fun kfm => batchUpdate kfm keys) fun kfm single => performSingleUpdates kfm single keys

def delete (f : FilterMap) (ips : List NetIP) (answer : KernelAnswer) : FilterMap × Option String :=
  match mapKeys ips with
  | .error err => (f,some err)
  | .ok keys => f.apply answer (fun kfm => batchDelete kfm keys) fun kfm single => performSingleDeletes kfm single keys

end FilterMap

/-! ## Keys -/

theorem append_inj {v w : ℕ} {x x' : BitVec v} {y y' : BitVec w} (h : x ++ y = x' ++ y') : x = x' ∧ y = y' := by
  have hy : y = y' := by simpa [BitVec.extractLsb'_append_eq_right] using congrArg (BitVec.extractLsb' 0 w) h
  subst hy
  exact ⟨(BitVec.append_left_inj y).mp h,rfl⟩

theorem mapKey_inj {ip ip' : NetIP} {key : FilterMapKey} (h : mapKey ip = .ok key) (h' : mapKey ip' = .ok key) :
    ip = ip' := by
  cases ip with
  | nil => simp [mapKey] at h
  | v6 addr => simp [mapKey] at h
  | v4 a b c d =>
    cases ip' with
    | nil => simp [mapKey] at h'
    | v6 addr => simp [mapKey] at h'
    | v4 a' b' c' d' =>
      simp only [mapKey, Except.ok.injEq] at h h'
      have hdata : ip2int a b c d = ip2int a' b' c' d' := congrArg FilterMapKey.data (h.trans h'.symm)
      obtain ⟨hdcb,rfl⟩ := append_inj hdata
      obtain ⟨hdc,rfl⟩ := append_inj hdcb
      obtain ⟨rfl,rfl⟩ := append_inj hdc
      rfl

theorem mapKeys_cons {ip : NetIP} {ips : List NetIP} {keys : List FilterMapKey} (h : mapKeys (ip :: ips) = .ok keys) :
    ∃ key rest, mapKey ip = .ok key ∧ mapKeys ips = .ok rest ∧ keys = key :: rest := by
  rw [mapKeys] at h
  cases hip : mapKey ip with
  | error err => simp [hip] at h
  | ok key =>
    cases hips : mapKeys ips with
    | error err => simp [hip, hips] at h
    | ok rest =>
      simp only [hip, hips, Except.ok.injEq] at h
      exact ⟨key,rest,rfl,rfl,h.symm⟩

theorem mem_mapKeys {ips : List NetIP} {keys : List FilterMapKey} (h : mapKeys ips = .ok keys)
    (key : FilterMapKey) : key ∈ keys ↔ ∃ ip ∈ ips, mapKey ip = .ok key := by
  induction ips generalizing keys with
  | nil =>
    cases h
    simp
  | cons ip ips ih =>
    obtain ⟨k,ks,hip,hips,rfl⟩ := mapKeys_cons h
    simp [ih hips, hip, eq_comm]

theorem nodup_mapKeys {ips : List NetIP} {keys : List FilterMapKey} (h : mapKeys ips = .ok keys)
    (hnodup : ips.Nodup) : keys.Nodup := by
  induction ips generalizing keys with
  | nil =>
    cases h
    exact List.nodup_nil
  | cons ip ips ih =>
    obtain ⟨k,ks,hip,hips,rfl⟩ := mapKeys_cons h
    obtain ⟨hnot,hnodup⟩ := List.nodup_cons.mp hnodup
    refine List.nodup_cons.mpr ⟨?_,ih hips hnodup⟩
    rw [mem_mapKeys hips]
    rintro ⟨ip',hip',hkey⟩
    exact hnot (mapKey_inj hip hkey ▸ hip')

theorem mapKey_of_mapKeys {ips : List NetIP} {keys : List FilterMapKey} (h : mapKeys ips = .ok keys) {ip : NetIP}
    (hip : ip ∈ ips) : ∃ key, mapKey ip = .ok key := by
  induction ips generalizing keys with
  | nil => simp at hip
  | cons ip' ips ih =>
    obtain ⟨k,ks,hip',hips,-⟩ := mapKeys_cons h
    rcases List.mem_cons.mp hip with rfl | hip
    · exact ⟨k,hip'⟩
    · exact ih hips hip

theorem mapKeys_of_forall {ips : List NetIP} (h : ∀ ip ∈ ips, ∃ key, mapKey ip = .ok key) :
    ∃ keys, mapKeys ips = .ok keys := by
  induction ips with
  | nil => exact ⟨[],rfl⟩
  | cons ip ips ih =>
    obtain ⟨key,hkey⟩ := h ip List.mem_cons_self
    obtain ⟨keys,hkeys⟩ := ih fun ip' hip' => h ip' (List.mem_cons_of_mem ip hip')
    exact ⟨key :: keys,by simp [mapKeys, hkey, hkeys]⟩

/-! ## What the kernel is left with -/

namespace KernelAnswer

def Clean (a : KernelAnswer) : Prop := (∀ n err, a.batch = .failed n err → n = 0) ∧ ∀ i, a.single (i + 1) = none

def Succeeds (a : KernelAnswer) : Prop := (∀ n err, a.batch ≠ .failed n err) ∧ ∀ i, a.single i = none

theorem Succeeds.clean {a : KernelAnswer} (h : a.Succeeds) : a.Clean :=
  ⟨fun n err hb => absurd hb (h.1 n err),fun i => h.2 (i + 1)⟩

end KernelAnswer

theorem mem_putKeys (keys : List FilterMapKey) (kfm : KernelKeys) (key : FilterMapKey) :
    key ∈ putKeys keys kfm ↔ key ∈ kfm ∨ key ∈ keys := by simp [putKeys]

theorem deleteKeys_of_present {kfm : KernelKeys} {keys : List FilterMapKey} (hin : ∀ key ∈ keys, key ∈ kfm)
    (hnodup : keys.Nodup) : deleteKeys kfm keys = (kfm \ keys.toFinset,none) := by
  induction keys generalizing kfm with
  | nil => simp [deleteKeys]
  | cons key keys ih =>
    obtain ⟨hnot,hnodup⟩ := List.nodup_cons.mp hnodup
    rw [deleteKeys, if_pos (hin key List.mem_cons_self), ih ?_ hnodup]
    · simp [Finset.sdiff_insert, Finset.erase_sdiff_comm]
    · intro k hk
      refine Finset.mem_erase.mpr ⟨?_,hin k (List.mem_cons_of_mem key hk)⟩
      rintro rfl
      exact hnot hk

theorem performSingleUpdates_of_none {single : ℕ → Option String} (h : ∀ i, single i = none) (kfm : KernelKeys)
    (keys : List FilterMapKey) : performSingleUpdates kfm single keys = (putKeys keys kfm,none) := by
  induction keys generalizing kfm single with
  | nil => simp [performSingleUpdates, putKeys]
  | cons key keys ih =>
    rw [performSingleUpdates, h 0]
    dsimp only
    rw [ih fun i => h (i + 1)]
    simp [putKeys, Finset.union_insert, Finset.insert_union]

theorem performSingleDeletes_of_none {single : ℕ → Option String} (h : ∀ i, single i = none) (kfm : KernelKeys)
    (keys : List FilterMapKey) : performSingleDeletes kfm single keys = deleteKeys kfm keys := by
  induction keys generalizing kfm single with
  | nil => rfl
  | cons key keys ih =>
    rw [performSingleDeletes, h 0, deleteKeys]
    dsimp only
    rw [ih fun i => h (i + 1)]

/-- Whatever the kernel answers, an update only adds keys of its list. -/
theorem performSingleUpdates_between (kfm : KernelKeys) (single : ℕ → Option String) (keys : List FilterMapKey) :
    kfm ⊆ (performSingleUpdates kfm single keys).1 ∧ (performSingleUpdates kfm single keys).1 ⊆ putKeys keys kfm := by
  induction keys generalizing kfm single with
  | nil => simp [performSingleUpdates, putKeys]
  | cons key keys ih =>
    rw [performSingleUpdates]
    cases single 0 with
    | some err => exact ⟨Finset.Subset.refl _,Finset.subset_union_left⟩
    | none =>
      obtain ⟨hlow,hhigh⟩ := ih (insert key kfm) fun i => single (i + 1)
      refine ⟨(Finset.subset_insert key kfm).trans hlow,hhigh.trans ?_⟩
      intro k hk
      simp only [mem_putKeys, Finset.mem_insert, List.mem_cons] at hk ⊢
      tauto

theorem performSingleUpdates_eq_none {kfm : KernelKeys} {single : ℕ → Option String} {keys : List FilterMapKey}
    (h : (performSingleUpdates kfm single keys).2 = none) :
    (performSingleUpdates kfm single keys).1 = putKeys keys kfm := by
  induction keys generalizing kfm single with
  | nil => simp [performSingleUpdates, putKeys]
  | cons key keys ih =>
    rw [performSingleUpdates] at h ⊢
    cases hs : single 0 with
    | some err => simp [hs] at h
    | none =>
      simp only [hs] at h ⊢
      rw [ih h]
      simp [putKeys, Finset.union_insert, Finset.insert_union]

/-- Single calls that fail only at the first key do all or nothing. -/
theorem performSingleUpdates_clean {single : ℕ → Option String} (h : ∀ i, single (i + 1) = none) (kfm : KernelKeys)
    (keys : List FilterMapKey) : performSingleUpdates kfm single keys = (putKeys keys kfm,none) ∨
      ∃ err, performSingleUpdates kfm single keys = (kfm,some err) := by
  cases keys with
  | nil => exact .inl (by simp [performSingleUpdates, putKeys])
  | cons key keys =>
    rw [performSingleUpdates]
    cases single 0 with
    | some err => exact .inr ⟨err,rfl⟩
    | none =>
      refine .inl ?_
      dsimp only
      rw [performSingleUpdates_of_none h]
      simp [putKeys, Finset.union_insert, Finset.insert_union]

theorem performSingleDeletes_clean {single : ℕ → Option String} (h : ∀ i, single (i + 1) = none) (kfm : KernelKeys)
    (keys : List FilterMapKey) : performSingleDeletes kfm single keys = deleteKeys kfm keys ∨
      ∃ err, performSingleDeletes kfm single keys = (kfm,some err) := by
  cases keys with
  | nil => exact .inl rfl
  | cons key keys =>
    rw [performSingleDeletes, deleteKeys]
    cases single 0 with
    | some err => exact .inr ⟨err,rfl⟩
    | none =>
      refine .inl ?_
      dsimp only
      rw [performSingleDeletes_of_none h]

namespace FilterMap
variable (f : FilterMap) (ips : List NetIP) (answer : KernelAnswer)

theorem apply_cases (batch : KernelKeys → BatchAnswer → KernelKeys × Option String)
    (singles : KernelKeys → (ℕ → Option String) → KernelKeys × Option String)
    (hns : ∀ kfm, (batch kfm .notSupported).1 = kfm) :
    (answer.batch ≠ .notSupported ∧ (f.apply answer batch singles).1.kfm = (batch f.kfm answer.batch).1 ∧
      (f.apply answer batch singles).2 = (batch f.kfm answer.batch).2) ∨
    ((f.apply answer batch singles).1.kfm = (singles f.kfm answer.single).1 ∧
      (f.apply answer batch singles).2 = (singles f.kfm answer.single).2) := by
  rw [apply]
  split
  · split
    · next hn => exact .inr (by simp [hn, hns])
    · next hn => exact .inl ⟨hn,rfl,rfl⟩
  · exact .inr ⟨rfl,rfl⟩

variable {f ips answer} {keys : List FilterMapKey}

theorem add_of_error {err : String} (h : mapKeys ips = .error err) : f.add ips answer = (f,some err) := by
  simp only [add, h]

theorem add_between (hkeys : mapKeys ips = .ok keys) :
    f.kfm ⊆ (f.add ips answer).1.kfm ∧ (f.add ips answer).1.kfm ⊆ putKeys keys f.kfm := by
  simp only [add, hkeys]
  rcases f.apply_cases answer (fun kfm => batchUpdate kfm keys)
    (fun kfm single => performSingleUpdates kfm single keys) (fun kfm => rfl) with ⟨-,hkfm,-⟩ | ⟨hkfm,-⟩ <;> rw [hkfm]
  · cases answer.batch with
    | ok => exact ⟨Finset.subset_union_left,Finset.Subset.refl _⟩
    | failed applied err =>
      refine ⟨Finset.subset_union_left,?_⟩
      intro key hkey
      rw [batchUpdate, mem_putKeys] at hkey
      rw [mem_putKeys]
      exact hkey.imp id List.mem_of_mem_take
    | notSupported => exact ⟨Finset.Subset.refl _,Finset.subset_union_left⟩
  · exact performSingleUpdates_between f.kfm answer.single keys

theorem add_of_none (h : (f.add ips answer).2 = none) :
    ∃ keys, mapKeys ips = .ok keys ∧ (f.add ips answer).1.kfm = putKeys keys f.kfm := by
  cases hkeys : mapKeys ips with
  | error err => simp [add_of_error hkeys] at h
  | ok keys =>
    refine ⟨keys,rfl,?_⟩
    simp only [add, hkeys] at h ⊢
    rcases f.apply_cases answer (fun kfm => batchUpdate kfm keys)
      (fun kfm single => performSingleUpdates kfm single keys) (fun kfm => rfl) with ⟨-,hkfm,herr⟩ | ⟨hkfm,herr⟩ <;>
        rw [hkfm] <;> rw [herr] at h
    · cases hb : answer.batch with
      | ok => rfl
      | failed applied err => simp [batchUpdate, hb] at h
      | notSupported => simp [batchUpdate, hb] at h
    · exact performSingleUpdates_eq_none h

theorem add_clean (hclean : answer.Clean) {err : String} (h : (f.add ips answer).2 = some err) :
    (f.add ips answer).1.kfm = f.kfm := by
  cases hkeys : mapKeys ips with
  | error err => rw [add_of_error hkeys]
  | ok keys =>
    simp only [add, hkeys] at h ⊢
    rcases f.apply_cases answer (fun kfm => batchUpdate kfm keys)
      (fun kfm single => performSingleUpdates kfm single keys) (fun kfm => rfl) with ⟨hn,hkfm,herr⟩ | ⟨hkfm,herr⟩ <;>
        rw [hkfm] <;> rw [herr] at h
    · cases hb : answer.batch with
      | ok => simp [batchUpdate, hb] at h
      | failed applied err =>
        rw [hclean.1 applied err hb]
        simp [batchUpdate, putKeys]
      | notSupported => exact absurd hb hn
    · rcases performSingleUpdates_clean hclean.2 f.kfm keys with hs | ⟨err',hs⟩
      · simp [hs] at h
      · rw [hs]

theorem add_succeeds (hanswer : answer.Succeeds) (hkeys : mapKeys ips = .ok keys) :
    (f.add ips answer).2 = none := by
  simp only [add, hkeys]
  rcases f.apply_cases answer (fun kfm => batchUpdate kfm keys)
    (fun kfm single => performSingleUpdates kfm single keys) (fun kfm => rfl) with ⟨hn,-,herr⟩ | ⟨-,herr⟩ <;> rw [herr]
  · cases hb : answer.batch with
    | ok => rfl
    | failed applied err => exact absurd hb (hanswer.1 applied err)
    | notSupported => exact absurd hb hn
  · rw [performSingleUpdates_of_none hanswer.2]

section Delete
variable (hkeys : mapKeys ips = .ok keys) (hin : ∀ key ∈ keys, key ∈ f.kfm) (hnodup : keys.Nodup)
include hkeys hin hnodup

/-- Deleting keys that are all present does all or nothing. -/
theorem delete_clean (hclean : answer.Clean) :
    ((f.delete ips answer).1.kfm = f.kfm \ keys.toFinset ∧ (f.delete ips answer).2 = none) ∨
      ((f.delete ips answer).1.kfm = f.kfm ∧ ∃ err, (f.delete ips answer).2 = some err) := by
  have hall := deleteKeys_of_present hin hnodup
  simp only [delete, hkeys]
  rcases f.apply_cases answer (fun kfm => batchDelete kfm keys)
    (fun kfm single => performSingleDeletes kfm single keys) (fun kfm => rfl) with ⟨hn,hkfm,herr⟩ | ⟨hkfm,herr⟩ <;>
      rw [hkfm, herr]
  · cases hb : answer.batch with
    | ok => exact .inl (by simp only [batchDelete, hall, and_self])
    | failed applied err =>
      rw [hclean.1 applied err hb]
      exact .inr (by simp [batchDelete, deleteKeys])
    | notSupported => exact absurd hb hn
  · rcases performSingleDeletes_clean hclean.2 f.kfm keys with hs | ⟨err,hs⟩
    · exact .inl (by simp only [hs, hall, and_self])
    · exact .inr (by simp [hs])

theorem delete_succeeds (hanswer : answer.Succeeds) :
    (f.delete ips answer).1.kfm = f.kfm \ keys.toFinset ∧ (f.delete ips answer).2 = none := by
  have hall := deleteKeys_of_present hin hnodup
  simp only [delete, hkeys]
  rcases f.apply_cases answer (fun kfm => batchDelete kfm keys)
    (fun kfm single => performSingleDeletes kfm single keys) (fun kfm => rfl) with ⟨hn,hkfm,herr⟩ | ⟨hkfm,herr⟩ <;>
      rw [hkfm, herr]
  · cases hb : answer.batch with
    | ok => simp only [batchDelete, hall, and_self]
    | failed applied err => exact absurd hb (hanswer.1 applied err)
    | notSupported => exact absurd hb hn
  · simp only [performSingleDeletes_of_none hanswer.2, hall, and_self]

end Delete

end FilterMap

end Retina.Filter
