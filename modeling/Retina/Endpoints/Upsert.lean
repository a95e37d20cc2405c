import Retina.Endpoints.Reconcile

/-! # What an upsert can do to the store

Whatever the requests answer, an upsert stores the new endpoint, or it fails and leaves the old one
or none.
-/
namespace Retina.Endpoints
variable {L N M : Type}

@[simp] theorem PodEndpoint.key_renumber (pep : PodEndpoint L M) (same : Bool) : (pep.renumber same).key = pep.key := by
  cases same <;> rfl
@[simp] theorem PodEndpoint.lbls_renumber (pep : PodEndpoint L M) (same : Bool) :
    (pep.renumber same).lbls = pep.lbls := by
  cases same <;> rfl
@[simp] theorem PodEndpoint.toDelete_renumber (pep : PodEndpoint L M) (same : Bool) :
    (pep.renumber same).toDelete = pep.toDelete := by
  cases same <;> rfl
@[simp] theorem PodEndpoint.podObj_renumber (pep : PodEndpoint L M) (same : Bool) :
    (pep.renumber same).podObj = pep.podObj := by
  cases same <;> rfl
@[simp] theorem PodEndpoint.identityID_renumber (pep : PodEndpoint L M) (same : Bool) :
    (pep.renumber same).identityID = pep.identityID := by
  cases same <;> rfl

inductive Upserted (store : Store L N M) (newPEP : PodEndpoint L M) : Store L N M → Result → Prop
  | refused (failure : Failure) : Upserted store newPEP store (.error failure)
  | dropped (failure : Failure) : Upserted store newPEP (store.deletePod newPEP.key) (.error failure)
  | stored (pep : PodEndpoint L M) (hkey : pep.key = newPEP.key) (hlbls : pep.lbls = newPEP.lbls)
      (htoDelete : pep.toDelete = newPEP.toDelete) (hpodObj : pep.podObj = newPEP.podObj) (hid : pep.identityID ≠ 0) :
      Upserted store newPEP (store.addPod pep) (.ok ())

theorem Upserted.of_eq {store store' : Store L N M} {newPEP pep : PodEndpoint L M} {result : Result}
    (h : Upserted store pep store' result) (hkey : pep.key = newPEP.key) (hlbls : pep.lbls = newPEP.lbls)
    (htoDelete : pep.toDelete = newPEP.toDelete) (hpodObj : pep.podObj = newPEP.podObj) :
    Upserted store newPEP store' result := by
  cases h with
  | refused failure => exact .refused failure
  | dropped failure =>
    rw [hkey]
    exact .dropped failure
  | stored stored hk hl ht hp hid =>
    exact .stored stored (hk.trans hkey) (hl.trans hlbls) (ht.trans htoDelete) (hp.trans hpodObj) hid

/-- The pod may have been dropped ahead of the upsert. -/
theorem Upserted.of_deletePod {store store' : Store L N M} {newPEP : PodEndpoint L M} {result : Result}
    (h : Upserted (store.deletePod newPEP.key) newPEP store' result) : Upserted store newPEP store' result := by
  cases h with
  | refused failure => exact .dropped failure
  | dropped failure =>
    have htwice : (store.deletePod newPEP.key).deletePod newPEP.key = store.deletePod newPEP.key := by
      refine Store.ext (Finmap.ext_lookup fun key => ?_) rfl
      rw [Store.lookup_deletePod]
      split_ifs with hkey
      · rw [Store.lookup_deletePod, if_pos hkey]
      · rfl
    rw [htwice]
    exact .dropped failure
  | stored pep hkey hlbls htoDelete hpodObj hid =>
    rw [← hkey, Store.addPod_deletePod]
    exact .stored pep hkey hlbls htoDelete hpodObj hid

@[simp] theorem store_deletePod (s : Reconciler L N M) (key : Key) : (s.deletePod key).store = s.store.deletePod key := rfl
@[simp] theorem store_addPod (s : Reconciler L N M) (pep : PodEndpoint L M) :
    (s.addPod pep).store = s.store.addPod pep := rfl

variable [DecidableEq L]

@[simp] theorem store_releaseIf (s : Reconciler L N M) (condition : Bool) (lbls : L) :
    (s.releaseIf condition lbls).store = s.store := by
  cases condition <;> rfl

theorem createEndpoint_upserted (o : Outcomes L N) (newPEP : PodEndpoint L M) (s : Reconciler L N M) :
    Upserted s.store newPEP (createEndpoint o newPEP s).1.store (createEndpoint o newPEP s).2 := by
  unfold createEndpoint
  cases o.allocateNew with
  | none => exact .refused _
  | some id =>
    dsimp only
    split_ifs
    · exact .refused _
    · exact .stored { newPEP with identityID := id, endpointID := 1 } rfl rfl rfl rfl id.2

theorem applyPatch_upserted (o : Outcomes L N) (newPEP : PodEndpoint L M) (hid : newPEP.identityID ≠ 0) (old : Previous L)
    (inCache allocated : Bool) (s : Reconciler L N M) :
    Upserted s.store newPEP (applyPatch o newPEP old inCache allocated s).1.store
      (applyPatch o newPEP old inCache allocated s).2 := by
  unfold applyPatch
  dsimp only
  generalize newPEP.sameNetworking old = same
  split_ifs
  · exact .stored newPEP rfl rfl rfl rfl hid
  · rw [store_releaseIf]
    exact .refused _
  · cases o.patch with
    | success =>
      dsimp only
      rw [store_addPod, store_releaseIf]
      exact .stored (newPEP.renumber same) (by simp) (by simp) (by simp) (by simp) (by simpa using hid)
    | failed =>
      dsimp only
      rw [store_releaseIf]
      exact .refused _
    | notFound =>
      dsimp only
      have h := createEndpoint_upserted o (newPEP.renumber same)
        (((s.releaseIf (inCache && !decide (newPEP.lbls = old.lbls)) old.lbls).releaseIf allocated
          (newPEP.renumber same).lbls).deletePod (newPEP.renumber same).key)
      rw [store_deletePod, store_releaseIf, store_releaseIf] at h
      exact h.of_deletePod.of_eq (by simp) (by simp) (by simp) (by simp)

theorem patchEndpoint_upserted (o : Outcomes L N) (newPEP : PodEndpoint L M) (old : Previous L) (inCache : Bool)
    (s : Reconciler L N M) :
    Upserted s.store newPEP (patchEndpoint o newPEP old inCache s).1.store (patchEndpoint o newPEP old inCache s).2 := by
  unfold patchEndpoint
  dsimp only
  split_ifs with hallocate
  · cases o.allocateUpdated with
    | none => exact .refused _
    | some id => exact (applyPatch_upserted o { newPEP with endpointID := old.endpointID, identityID := id } id.2 old inCache
        true (s.incrementReference newPEP.lbls id)).of_eq rfl rfl rfl rfl
  · have hid : old.identityID ≠ 0 := by
      intro hzero
      simp [hzero] at hallocate
    exact (applyPatch_upserted o { newPEP with endpointID := old.endpointID, identityID := old.identityID } hid old inCache
        false s).of_eq rfl rfl rfl rfl

theorem handlePodUpsert_upserted [EmptyCollection L] (o : Outcomes L N) (newPEP : PodEndpoint L M)
    (s : Reconciler L N M) :
    Upserted s.store newPEP (handlePodUpsert o newPEP s).1.store (handlePodUpsert o newPEP s).2 := by
  unfold handlePodUpsert
  cases s.store.pods.lookup newPEP.key with
  | some oldPEP => exact patchEndpoint_upserted o newPEP _ true s
  | none =>
    dsimp only
    split_ifs
    · exact .refused _
    · cases o.getByKey with
      | none => exact .refused _
      | some oldCEP =>
        dsimp only
        cases oldCEP.bind CiliumEndpoint.previous with
        | none => exact createEndpoint_upserted o newPEP s
        | some old => exact patchEndpoint_upserted o newPEP old false s

/-! ## The labels of a pod -/

def Reconciler.knownNamespace (s : Reconciler L N M) (o : Outcomes L N) (pod : Pod M) : Option (Version N) :=
  (s.store.namespaces.lookup pod.namespaceName).or o.getNamespace

omit [DecidableEq L] in
theorem addNamespace_self {s : Reconciler L N M} {name : String} {version : Version N}
    (h : s.store.namespaces.lookup name = some version) : s.addNamespace name version = s := by
  have hstore : s.store.addNamespace name version = s.store := Store.ext rfl (FiniteMap.insert_lookup h)
  rw [Reconciler.addNamespace, hstore]

omit [DecidableEq L] in
theorem ciliumEndpointsLabels_eq (podMetadata : N → Pod M → L) (o : Outcomes L N) (pod : Pod M) (s : Reconciler L N M) :
    ciliumEndpointsLabels podMetadata o pod s =
      match s.knownNamespace o pod with
      | none => (s,.error .getNamespace)
      | some version => (s.addNamespace pod.namespaceName version,.ok (podMetadata version.labels pod)) := by
  unfold ciliumEndpointsLabels Reconciler.knownNamespace
  cases hknown : s.store.namespaces.lookup pod.namespaceName with
  | some version =>
    dsimp only [Option.or]
    rw [addNamespace_self hknown]
  | none => rfl

/-- A reconcile deletes the pod, leaves everything as it is, or upserts the pod with its labels. -/
theorem reconcilePod_cases [EmptyCollection L] (podMetadata : N → Pod M → L) (o : Outcomes L N) (key : Key)
    (pod : Option (Pod M)) (s : Reconciler L N M) :
    (reconcilePod podMetadata o key pod s).1 = (handlePodDelete o key s).1 ∨ (reconcilePod podMetadata o key pod s).1 = s ∨
      ∃ p version, pod = some p ∧ p.deletionTimestamp = false ∧ ¬(p.podIP = "" ∨ p.hostIP = "") ∧
        s.knownNamespace o p = some version := by
  cases pod with
  | none => exact .inl rfl
  | some pod =>
    cases hdeletion : pod.deletionTimestamp with
    | true => exact .inl (by simp [reconcilePod, hdeletion])
    | false =>
      by_cases hips : pod.podIP = "" ∨ pod.hostIP = ""
      · exact .inr (.inl (by simp [reconcilePod, hdeletion, hips]))
      · cases hknown : s.knownNamespace o pod with
        | none => exact .inr (.inl (by simp [reconcilePod, hdeletion, hips, ciliumEndpointsLabels_eq, hknown]))
        | some version => exact .inr (.inr ⟨pod,version,rfl,hdeletion,hips,hknown⟩)

theorem reconcilePod_upsert [EmptyCollection L] (podMetadata : N → Pod M → L) {o : Outcomes L N} {key : Key} {pod : Pod M}
    {s : Reconciler L N M} {version : Version N} (hdeletion : pod.deletionTimestamp = false)
    (hips : ¬(pod.podIP = "" ∨ pod.hostIP = "")) (hknown : s.knownNamespace o pod = some version) :
    (reconcilePod podMetadata o key (some pod) s).1 =
      (handlePodUpsert o (pod.endpoint key (podMetadata version.labels pod))
        (s.addNamespace pod.namespaceName version)).1 := by
  simp only [reconcilePod, hdeletion, Bool.false_eq_true, if_false, hips, ciliumEndpointsLabels_eq, hknown]
  rfl

end Retina.Endpoints
