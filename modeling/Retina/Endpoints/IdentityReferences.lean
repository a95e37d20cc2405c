import Retina.Endpoints.Upsert

/-! # The references to identities

An upsert takes and gives back references on many paths. They balance on all of them but one: the
endpoint of a pod that only changed its addresses is gone, and the pod leaves the store with its
reference still counted.
-/
namespace Retina.Endpoints
open Execution
variable {L N M : Type} [DecidableEq L]

def Reconciler.podsWith (s : Reconciler L N M) (lbls : L) : ℕ := References.held PodEndpoint.lbls s.store.pods lbls

def Reconciler.surplus (s : Reconciler L N M) : L → ℤ :=
  References.surplus PodEndpoint.lbls s.identityManager.references s.store.pods

theorem surplus_eq_zero_iff (s : Reconciler L N M) :
    s.surplus = 0 ↔ ∀ lbls, s.identityManager.references lbls = s.podsWith lbls := References.surplus_eq_zero_iff

theorem references_pos {s : Reconciler L N M} {key : Key} {pod : PodEndpoint L M} (h : s.store.pods.lookup key = some pod)
    (hs : 0 ≤ s.surplus pod.lbls) : 0 < s.identityManager.references pod.lbls := References.pos_of_holder h hs

/-! ## The surplus after each operation -/

theorem surplus_incrementReference (s : Reconciler L N M) (lbls : L) (id : NumericIdentity) :
    (s.incrementReference lbls id).surplus = s.surplus + Pi.single lbls 1 := References.surplus_acquire lbls

theorem surplus_decrementReference {s : Reconciler L N M} {lbls : L} (h : 0 < s.identityManager.references lbls) :
    (s.decrementReference lbls).surplus = s.surplus - Pi.single lbls 1 := by
  unfold Reconciler.surplus
  change References.surplus _ (s.identityManager.decrementReference lbls).references s.store.pods = _
  rw [s.identityManager.references_decrementReference h, References.surplus_release h]

theorem surplus_addPod_of_none {s : Reconciler L N M} (pep : PodEndpoint L M) (h : s.store.pods.lookup pep.key = none) :
    (s.addPod pep).surplus = s.surplus - Pi.single pep.lbls 1 := References.surplus_insert_of_none pep h

theorem surplus_addPod_of_some {s : Reconciler L N M} (pep : PodEndpoint L M) {old : PodEndpoint L M}
    (h : s.store.pods.lookup pep.key = some old) :
    (s.addPod pep).surplus = s.surplus - Pi.single pep.lbls 1 + Pi.single old.lbls 1 :=
  References.surplus_insert_of_some pep h

theorem surplus_deletePod_of_some {s : Reconciler L N M} {key : Key} {old : PodEndpoint L M}
    (h : s.store.pods.lookup key = some old) : (s.deletePod key).surplus = s.surplus + Pi.single old.lbls 1 :=
  References.surplus_erase h

omit [DecidableEq L] in
theorem deletePod_of_none {s : Reconciler L N M} {key : Key} (h : s.store.pods.lookup key = none) :
    s.deletePod key = s := by
  have hstore : s.store.deletePod key = s.store := by
    refine Store.ext (Finmap.ext_lookup fun k => ?_) rfl
    rw [Store.lookup_deletePod]
    split_ifs with hk
    · rw [hk, h]
    · rfl
  rw [Reconciler.deletePod, hstore]

/-- A reference that no pod has can be given back. -/
theorem surplus_release_single {s : Reconciler L N M} {lbls : L} (h : s.surplus = Pi.single lbls 1) :
    (s.decrementReference lbls).surplus = 0 := by
  have hpos : 0 < s.surplus lbls := by simp [h]
  rw [surplus_decrementReference (References.pos_of_surplus hpos), h, sub_self]

/-! ## Upserts -/

theorem createEndpoint_surplus (o : Outcomes L N) {newPEP : PodEndpoint L M} {s : Reconciler L N M}
    (h : s.store.pods.lookup newPEP.key = none) : (createEndpoint o newPEP s).1.surplus = s.surplus := by
  unfold createEndpoint
  cases o.allocateNew with
  | none => rfl
  | some id =>
    have hincrement := surplus_incrementReference s newPEP.lbls id
    dsimp only
    split_ifs
    · have hpos : 0 < (s.incrementReference newPEP.lbls id).identityManager.references newPEP.lbls := by
        simp [Reconciler.incrementReference, IdentityManager.incrementReference]
      dsimp only
      rw [surplus_decrementReference hpos, hincrement, add_sub_cancel_right]
    · have hadd := surplus_addPod_of_none (s := s.incrementReference newPEP.lbls id)
        { newPEP with identityID := id, endpointID := 1 } h
      rw [hadd, hincrement, add_sub_cancel_right]

/-- The pod is not in the store. -/
theorem applyPatch_uncached (o : Outcomes L N) (newPEP : PodEndpoint L M) (old : Previous L) {s : Reconciler L N M}
    (hnone : s.store.pods.lookup newPEP.key = none) (hs : s.surplus = Pi.single newPEP.lbls 1) :
    (applyPatch o newPEP old false true s).1.surplus = 0 := by
  unfold applyPatch
  dsimp only
  generalize newPEP.sameNetworking old = same
  split_ifs
  · rw [surplus_addPod_of_none _ hnone, hs, sub_self]
  · rw [Reconciler.releaseIf, if_pos rfl, PodEndpoint.lbls_renumber]
    exact surplus_release_single hs
  · cases o.patch with
    | success =>
      have hnone' : s.store.pods.lookup (newPEP.renumber same).key = none := by rwa [PodEndpoint.key_renumber]
      simp only [Bool.false_and, Reconciler.releaseIf, Bool.false_eq_true, if_false]
      rw [surplus_addPod_of_none _ hnone', PodEndpoint.lbls_renumber, hs, sub_self]
    | failed =>
      simp only [Reconciler.releaseIf, if_true, PodEndpoint.lbls_renumber]
      exact surplus_release_single hs
    | notFound =>
      have hnone' : (s.decrementReference newPEP.lbls).store.pods.lookup (newPEP.renumber same).key = none := by
        rwa [PodEndpoint.key_renumber]
      simp only [Bool.false_and, Reconciler.releaseIf, Bool.false_eq_true, if_false, if_true, PodEndpoint.lbls_renumber]
      rw [deletePod_of_none hnone', createEndpoint_surplus o hnone']
      exact surplus_release_single hs

/-- The pod has other labels than before. -/
theorem applyPatch_relabelled (o : Outcomes L N) (newPEP : PodEndpoint L M) {old : PodEndpoint L M} {s : Reconciler L N M}
    (hold : s.store.pods.lookup newPEP.key = some old) (hlbls : newPEP.lbls ≠ old.lbls)
    (hs : s.surplus = Pi.single newPEP.lbls 1) :
    (applyPatch o newPEP old.previous true true s).1.surplus = 0 := by
  have hlbls' : newPEP.lbls ≠ old.previous.lbls := hlbls
  have hreleaseOld : (s.decrementReference old.lbls).surplus = Pi.single newPEP.lbls 1 - Pi.single old.lbls 1 := by
    have hzero : s.surplus old.lbls = 0 := by rw [hs, Pi.single_eq_of_ne (Ne.symm hlbls)]
    rw [surplus_decrementReference (references_pos hold (le_of_eq hzero.symm)), hs]
  unfold applyPatch
  dsimp only
  generalize newPEP.sameNetworking old.previous = same
  have hold' : (s.decrementReference old.lbls).store.pods.lookup (newPEP.renumber same).key = some old := by
    rwa [PodEndpoint.key_renumber]
  simp only [hlbls', decide_false, Bool.and_false, Bool.false_eq_true, if_false, Reconciler.releaseIf, if_true,
    PodEndpoint.lbls_renumber, Bool.not_false, Bool.and_true]
  split_ifs
  · exact surplus_release_single hs
  · cases o.patch with
    | success =>
      change ((s.decrementReference old.lbls).addPod (newPEP.renumber same)).surplus = 0
      rw [surplus_addPod_of_some _ hold', hreleaseOld, PodEndpoint.lbls_renumber]
      abel
    | failed => exact surplus_release_single hs
    | notFound =>
      have hpos : 0 < (s.decrementReference old.lbls).surplus newPEP.lbls := by
        rw [hreleaseOld, Pi.sub_apply, Pi.single_eq_same, Pi.single_eq_of_ne hlbls]
        decide
      have hreleaseNew := surplus_decrementReference (References.pos_of_surplus hpos)
      change (createEndpoint o (newPEP.renumber same) (((s.decrementReference old.lbls).decrementReference
        newPEP.lbls).deletePod (newPEP.renumber same).key)).1.surplus = 0
      rw [createEndpoint_surplus o (by rw [store_deletePod, Store.lookup_deletePod, if_pos rfl]),
        surplus_deletePod_of_some (s := (s.decrementReference old.lbls).decrementReference newPEP.lbls) hold', hreleaseNew,
        hreleaseOld]
      abel

/-- The pod has the same labels as before. -/
theorem applyPatch_sameLabels (o : Outcomes L N) (newPEP : PodEndpoint L M) {old : PodEndpoint L M} {s : Reconciler L N M}
    (hold : s.store.pods.lookup newPEP.key = some old) (hlbls : newPEP.lbls = old.lbls) (hs : s.surplus = 0) :
    (applyPatch o newPEP old.previous true false s).1.surplus =
      if newPEP.sameNetworking old.previous = false ∧ o.marshal = true ∧ o.patch = .notFound then Pi.single newPEP.lbls 1
      else 0 := by
  have hlbls' : newPEP.lbls = old.previous.lbls := hlbls
  have hadd : ∀ same, (s.addPod (newPEP.renumber same)).surplus = 0 := by
    intro same
    have hold' : s.store.pods.lookup (newPEP.renumber same).key = some old := by rwa [PodEndpoint.key_renumber]
    rw [surplus_addPod_of_some _ hold', PodEndpoint.lbls_renumber, hlbls, hs]
    abel
  unfold applyPatch
  simp only [hlbls', decide_true, Bool.and_true, Reconciler.releaseIf, Bool.false_eq_true, if_false, Bool.not_true,
    Bool.and_false]
  cases hsame : newPEP.sameNetworking old.previous with
  | true =>
    have h := hadd true
    simpa [PodEndpoint.renumber] using h
  | false =>
    cases hmarshal : o.marshal with
    | false => simpa using hs
    | true =>
      cases hpatch : o.patch with
      | success => simpa using hadd false
      | failed => simpa using hs
      | notFound =>
        have hold' : s.store.pods.lookup (newPEP.renumber false).key = some old := by rwa [PodEndpoint.key_renumber]
        simp only [Bool.false_eq_true, if_false, Bool.not_true, and_self, if_true]
        rw [createEndpoint_surplus o (by rw [store_deletePod, Store.lookup_deletePod, if_pos rfl]),
          surplus_deletePod_of_some hold', hs, zero_add, ← hlbls, hlbls']

structure Counted (s : Reconciler L N M) : Prop where
  surplus : s.surplus = 0
  identified : ∀ {key pod}, s.store.pods.lookup key = some pod → pod.identityID ≠ 0

/-- The endpoint of a pod with the same labels and other addresses is gone. -/
def PatchMisses (s : Reconciler L N M) (o : Outcomes L N) (newPEP : PodEndpoint L M) : Prop :=
  ∃ old, s.store.pods.lookup newPEP.key = some old ∧ newPEP.lbls = old.lbls ∧
    newPEP.sameNetworking old.previous = false ∧ o.marshal = true ∧ o.patch = .notFound

theorem patchEndpoint_uncached (o : Outcomes L N) {newPEP : PodEndpoint L M} (old : Previous L) {s : Reconciler L N M}
    (hnone : s.store.pods.lookup newPEP.key = none) (hs : s.surplus = 0) :
    (patchEndpoint o newPEP old false s).1.surplus = 0 := by
  unfold patchEndpoint
  rw [if_pos (by simp)]
  cases o.allocateUpdated with
  | none => exact hs
  | some id =>
    refine applyPatch_uncached o _ old hnone ?_
    rw [surplus_incrementReference, hs, zero_add]

theorem patchEndpoint_cached (o : Outcomes L N) {newPEP old : PodEndpoint L M} {s : Reconciler L N M}
    (hold : s.store.pods.lookup newPEP.key = some old) (hid : old.identityID ≠ 0) (hs : s.surplus = 0) :
    (patchEndpoint o newPEP old.previous true s).1.surplus = 0 ∧ ¬PatchMisses s o newPEP ∨
      (patchEndpoint o newPEP old.previous true s).1.surplus = Pi.single newPEP.lbls 1 ∧ PatchMisses s o newPEP := by
  have hid' : old.previous.identityID ≠ 0 := hid
  unfold patchEndpoint
  dsimp only
  by_cases hlbls : newPEP.lbls = old.lbls
  · have hlbls' : newPEP.lbls = old.previous.lbls := hlbls
    have hsurplus := applyPatch_sameLabels o { newPEP with
      endpointID := old.previous.endpointID, identityID := old.previous.identityID } hold hlbls hs
    rw [if_neg (by simp [hlbls', hid']), hsurplus]
    split_ifs with hmisses
    · exact .inr ⟨rfl,old,hold,hlbls,hmisses⟩
    · refine .inl ⟨rfl,?_⟩
      rintro ⟨old',hold',_,hrest⟩
      cases hold.symm.trans hold'
      exact hmisses hrest
  · have hlbls' : newPEP.lbls ≠ old.previous.lbls := hlbls
    rw [if_pos (by simp [hlbls'])]
    refine .inl ⟨?_,?_⟩
    · cases o.allocateUpdated with
      | none => exact hs
      | some id =>
        refine applyPatch_relabelled o _ hold hlbls ?_
        rw [surplus_incrementReference, hs, zero_add]
    · rintro ⟨old',hold',hsame,_⟩
      cases hold.symm.trans hold'
      exact hlbls hsame

section
variable [EmptyCollection L]

theorem handlePodUpsert_surplus (o : Outcomes L N) (newPEP : PodEndpoint L M) {s : Reconciler L N M} (h : Counted s) :
    (handlePodUpsert o newPEP s).1.surplus = 0 ∧ ¬PatchMisses s o newPEP ∨
      (handlePodUpsert o newPEP s).1.surplus = Pi.single newPEP.lbls 1 ∧ PatchMisses s o newPEP := by
  unfold handlePodUpsert
  cases hpod : s.store.pods.lookup newPEP.key with
  | some old => exact patchEndpoint_cached o hpod (h.identified hpod) h.surplus
  | none =>
    refine .inl ⟨?_,?_⟩
    · dsimp only
      split_ifs
      · exact h.surplus
      · cases o.getByKey with
        | none => exact h.surplus
        | some oldCEP =>
          dsimp only
          cases oldCEP.bind CiliumEndpoint.previous with
          | none => exact (createEndpoint_surplus o hpod).trans h.surplus
          | some old => exact patchEndpoint_uncached o old hpod h.surplus
    · rintro ⟨old,hold,_⟩
      cases hpod.symm.trans hold

theorem handlePodUpsert_counted (o : Outcomes L N) {newPEP : PodEndpoint L M} {s : Reconciler L N M} (h : Counted s)
    (hnot : ¬PatchMisses s o newPEP) : Counted (handlePodUpsert o newPEP s).1 := by
  refine ⟨((handlePodUpsert_surplus o newPEP h).resolve_right fun hmisses => hnot hmisses.2).1,?_⟩
  intro key pod hpod
  have hupserted := handlePodUpsert_upserted o newPEP s
  generalize (handlePodUpsert o newPEP s).1.store = store at hupserted hpod
  generalize (handlePodUpsert o newPEP s).2 = result at hupserted
  cases hupserted with
  | refused _ => exact h.identified hpod
  | dropped _ => exact h.identified (FiniteMap.lookup_of_erase hpod).2
  | stored pep _ _ _ _ hid =>
    rw [Store.lookup_addPod] at hpod
    split_ifs at hpod with hkey
    · cases hpod
      exact hid
    · exact h.identified hpod

omit [EmptyCollection L] in
theorem handlePodDelete_counted (o : Outcomes L N) (key : Key) {s : Reconciler L N M} (h : Counted s) :
    Counted (handlePodDelete o key s).1 := by
  unfold handlePodDelete Store.getToDeletePod
  cases hpod : s.store.pods.lookup key with
  | none => exact h
  | some pod =>
    have hkey := s.store.keyed hpod
    have hpod' : s.store.pods.lookup pod.key = some pod := by rwa [hkey]
    have hmarked : (s.addPod { pod with toDelete := true }).surplus = 0 := by
      rw [surplus_addPod_of_some { pod with toDelete := true } hpod', h.surplus]
      abel
    have hfound : (s.addPod { pod with toDelete := true }).store.pods.lookup key = some { pod with toDelete := true } := by
      rw [store_addPod, Store.lookup_addPod, if_pos hkey.symm]
    have hidentified : ∀ {k p}, (s.addPod { pod with toDelete := true }).store.pods.lookup k = some p →
        p.identityID ≠ 0 := by
      intro k p hp
      rw [store_addPod, Store.lookup_addPod] at hp
      split_ifs at hp
      · cases hp
        have hid : pod.identityID ≠ 0 := h.identified hpod
        exact hid
      · exact h.identified hp
    dsimp only
    split_ifs
    · exact ⟨hmarked,hidentified⟩
    · have hpos := references_pos hfound (le_of_eq (congrFun hmarked pod.lbls).symm)
      have hreleased := surplus_decrementReference hpos
      refine ⟨?_,fun hp => hidentified (FiniteMap.lookup_of_erase hp).2⟩
      change (((s.addPod { pod with toDelete := true }).decrementReference pod.lbls).deletePod key).surplus = 0
      rw [surplus_deletePod_of_some (s := (s.addPod { pod with toDelete := true }).decrementReference pod.lbls) hfound,
        hreleased, hmarked]
      abel

/-! ## Runs -/

theorem reconcilePods_counted (podMetadata : N → Pod M → L) (o : Key → Outcomes L N) (podList : List Key)
    {s : Reconciler L N M} (h : Counted s) : Counted (reconcilePods podMetadata o podList s).1 := by
  induction podList generalizing s with
  | nil => exact h
  | cons key podList ih =>
    rw [reconcilePods]
    cases hpod : s.store.pods.lookup key with
    | none => exact ih h
    | some pod =>
      dsimp only
      split_ifs
      · exact ih h
      · rw [ciliumEndpointsLabels_eq]
        cases s.knownNamespace (o key) pod.podObj with
        | none => exact h
        | some version =>
          dsimp only
          -- the addresses are the ones that the pod in the store has
          have hnot : ¬PatchMisses (s.addNamespace pod.podObj.namespaceName version) (o key)
              { pod.deepCopy with lbls := podMetadata version.labels pod.podObj } := by
            rintro ⟨old,hold,_,hnetworking,_⟩
            have hold' : s.store.pods.lookup pod.key = some old := hold
            rw [s.store.keyed hpod, hpod] at hold'
            cases hold'
            simp [PodEndpoint.sameNetworking, PodEndpoint.previous, PodEndpoint.deepCopy] at hnetworking
          have hcounted := handlePodUpsert_counted (o key) (s := s.addNamespace pod.podObj.namespaceName version)
            ⟨h.1,h.2⟩ hnot
          generalize handlePodUpsert (o key) { pod.deepCopy with lbls := podMetadata version.labels pod.podObj }
            (s.addNamespace pod.podObj.namespaceName version) = upserted at hcounted
          obtain ⟨s',result⟩ := upserted
          cases result with
          | error failure => exact hcounted
          | ok _ => exact ih hcounted

variable [DecidableEq N] (podMetadata : N → Pod M → L)

/-- An upsert whose patch misses the endpoint of a pod that is in the store with the same labels. -/
def Leaks (s : Reconciler L N M) : Event L N M → Prop
  | .reconcilePod o key (some pod) => pod.deletionTimestamp = false ∧ pod.podIP ≠ "" ∧ pod.hostIP ≠ "" ∧
      ∃ version, s.knownNamespace o pod = some version ∧
        PatchMisses s o (pod.endpoint key (podMetadata version.labels pod))
  | _ => False

theorem step_counted (s : Reconciler L N M) (event : Event L N M) (h : Counted s) (hnot : ¬Leaks podMetadata s event) :
    Counted (step podMetadata s event) := by
  cases event with
  | reconcilePod o key pod =>
    rw [step]
    rcases reconcilePod_cases podMetadata o key pod s with hdeleted | hsame | ⟨pod,version,rfl,hdeletion,hips,hknown⟩
    · rw [hdeleted]
      exact handlePodDelete_counted o key h
    · rwa [hsame]
    · rw [reconcilePod_upsert podMetadata hdeletion hips hknown]
      refine handlePodUpsert_counted o ⟨h.1,h.2⟩ fun hmisses => hnot ?_
      exact ⟨hdeletion,fun hip => hips (.inl hip),fun hip => hips (.inr hip),version,hknown,hmisses⟩
  | handlePodDelete o key => exact handlePodDelete_counted o key h
  | reconcilePodsInNamespace o order name => exact reconcilePods_counted podMetadata o _ h
  | reconcileNamespace o order ns =>
    unfold step reconcileNamespace
    cases ns with
    | none => exact h
    | some ns =>
      dsimp only
      split_ifs
      · exact ⟨h.1,h.2⟩
      · cases s.store.namespaces.lookup ns.name with
        | none => exact ⟨h.1,h.2⟩
        | some oldNs =>
          dsimp only
          split_ifs
          · exact h
          · exact h
          · exact reconcilePods_counted podMetadata o _ (s := s.addNamespace ns.name ns.toVersion) ⟨h.1,h.2⟩
  | handleNamespaceDelete name => exact ⟨h.1,h.2⟩

theorem step_leaks {s : Reconciler L N M} {event : Event L N M} (h : Counted s) (hleaks : Leaks podMetadata s event) :
    (step podMetadata s event).surplus ≠ 0 := by
  cases event with
  | reconcilePod o key pod =>
    cases pod with
    | none => exact hleaks.elim
    | some pod =>
      obtain ⟨hdeletion,hpodIP,hhostIP,version,hknown,hmisses⟩ := hleaks
      have hips : ¬(pod.podIP = "" ∨ pod.hostIP = "") := fun hip => hip.elim hpodIP hhostIP
      rw [step, reconcilePod_upsert podMetadata hdeletion hips hknown]
      have hcounted : Counted (s.addNamespace pod.namespaceName version) := ⟨h.1,h.2⟩
      have hsurplus := (handlePodUpsert_surplus o (pod.endpoint key (podMetadata version.labels pod)) hcounted).resolve_left
        fun hright => hright.2 hmisses
      rw [hsurplus.1]
      intro hzero
      have hone := congrFun hzero (pod.endpoint key (podMetadata version.labels pod)).lbls
      rw [Pi.single_eq_same] at hone
      exact one_ne_zero hone
  | handlePodDelete _ _ => exact hleaks.elim
  | reconcilePodsInNamespace _ _ _ => exact hleaks.elim
  | reconcileNamespace _ _ _ => exact hleaks.elim
  | handleNamespaceDelete _ => exact hleaks.elim

/-- The reference counts match the pods after every operation exactly if no upsert misses the endpoint of a pod
that it has with the same labels. -/
theorem references_match_pods_iff (events : List (Event L N M)) :
    (∀ earlier, earlier <+: events → ∀ lbls,
        (run (step podMetadata) Reconciler.new earlier).identityManager.references lbls =
          (run (step podMetadata) Reconciler.new earlier).podsWith lbls) ↔
      Along (step podMetadata) (fun s event => ¬Leaks podMetadata s event) Reconciler.new events := by
  have hnew : Counted (Reconciler.new : Reconciler L N M) := by
    refine ⟨?_,fun hpod => ?_⟩
    · funext lbls
      rfl
    · simp [Reconciler.new, Store.new] at hpod
  refine forall_prefix_iff_along (D := fun _ _ => True) ?_ ?_ (along_of_forall (fun _ _ _ => trivial) _)
  · intro es _ hnot
    exact (surplus_eq_zero_iff _).mp (invariant (step_counted podMetadata) hnew hnot).surplus
  · intro es event _ hnot _ hleaks hall
    rw [not_not] at hleaks
    have hcounted := invariant (step_counted podMetadata) hnew hnot
    refine step_leaks podMetadata hcounted hleaks ((surplus_eq_zero_iff _).mpr ?_)
    rwa [run_append] at hall

end

def joinedLabels (namespaceLabels : List String) (pod : Pod (List String)) : List String :=
  namespaceLabels ++ pod.metadata

def webPod (podIP : String) : Pod (List String) := ⟨"apps","web",false,podIP,"192.168.0.1",["app=web"]⟩

def answered : Outcomes (List String) (List String) where
  getNamespace := some ⟨"1",["team=a"]⟩
  store := true
  getByKey := some none
  allocateUpdated := some ⟨256,by decide⟩
  marshal := true
  patch := .success
  allocateNew := some ⟨256,by decide⟩
  create := true
  delete := .success

/-- The pod comes back with another address after its endpoint was collected. -/
theorem recreatedPod_counted_twice :
    let s := run (step joinedLabels) Reconciler.new
      [.reconcilePod answered ⟨"apps","web"⟩ (some (webPod "10.0.0.1")),
        .reconcilePod { answered with patch := .notFound } ⟨"apps","web"⟩ (some (webPod "10.0.0.2"))]
    s.identityManager.references ["team=a","app=web"] = 2 ∧ s.podsWith ["team=a","app=web"] = 1 := by
  decide

end Retina.Endpoints
