import Retina.Endpoints.IdentityReferences

/-! # The labels of namespaces

A pod carries labels that follow from those of its namespace. The new version of a namespace is in
the store before the pods are updated, so that a call that is repeated after an error finds nothing
to do.
-/
namespace Retina.Endpoints
open Execution
variable {L N M : Type} (podMetadata : N → Pod M → L)

structure UpToDate (pending : List Key) (store : Store L N M) : Prop where
  labels : ∀ {key pod}, store.pods.lookup key = some pod → pod.toDelete = false → key ∉ pending →
    ∃ version, store.namespaces.lookup key.namespaceName = some version ∧
      pod.lbls = podMetadata version.labels pod.podObj
  podObj : ∀ {key pod}, store.pods.lookup key = some pod → pod.podObj.namespaceName = key.namespaceName
  identified : ∀ {key pod}, store.pods.lookup key = some pod → pod.identityID ≠ 0

variable {podMetadata}

theorem UpToDate.deletePod {pending : List Key} {store : Store L N M} (h : UpToDate podMetadata pending store) (key : Key) :
    UpToDate podMetadata pending (store.deletePod key) := by
  refine ⟨fun hpod => ?_,fun hpod => ?_,fun hpod => ?_⟩
  · exact h.labels (FiniteMap.lookup_of_erase hpod).2
  · exact h.podObj (FiniteMap.lookup_of_erase hpod).2
  · exact h.identified (FiniteMap.lookup_of_erase hpod).2

theorem UpToDate.addPod {pending later : List Key} {store : Store L N M} (h : UpToDate podMetadata pending store)
    {pep : PodEndpoint L M} (hpodObj : pep.podObj.namespaceName = pep.key.namespaceName) (hid : pep.identityID ≠ 0)
    (hlabels : pep.toDelete = false → ∃ version, store.namespaces.lookup pep.key.namespaceName = some version ∧
      pep.lbls = podMetadata version.labels pep.podObj)
    (hlater : ∀ key, key ∈ pending → key ∉ later → key = pep.key) :
    UpToDate podMetadata later (store.addPod pep) := by
  refine ⟨fun {key pod} hpod => ?_,fun {key pod} hpod => ?_,fun {key pod} hpod => ?_⟩
  all_goals
    rw [Store.lookup_addPod] at hpod
    split_ifs at hpod with hkey
  · cases hpod
    subst hkey
    exact fun htoDelete _ => hlabels htoDelete
  · exact fun htoDelete hnot => h.labels hpod htoDelete fun hpending => hkey (hlater key hpending hnot)
  · cases hpod
    subst hkey
    exact hpodObj
  · exact h.podObj hpod
  · cases hpod
    exact hid
  · exact h.identified hpod

/-- A key can be passed over if its pod is to be deleted. -/
theorem UpToDate.skip {key : Key} {pending : List Key} {store : Store L N M}
    (h : UpToDate podMetadata (key :: pending) store)
    (hskip : ∀ pod, store.pods.lookup key = some pod → pod.toDelete = true) : UpToDate podMetadata pending store := by
  refine ⟨fun {k pod} hpod htoDelete hnot => ?_,h.podObj,h.identified⟩
  by_cases hk : k = key
  · subst hk
    rw [hskip pod hpod] at htoDelete
    cases htoDelete
  · exact h.labels hpod htoDelete (by simp [hk, hnot])

def Store.NoPods (store : Store L N M) (name : String) : Prop :=
  ∀ key pod, store.pods.lookup key = some pod → key.namespaceName = name → pod.toDelete = true

/-- Without a version in the store there is no pod that has to follow it. -/
theorem UpToDate.noPods {store : Store L N M} (h : UpToDate podMetadata [] store) {name : String}
    (hnone : store.namespaces.lookup name = none) : store.NoPods name := by
  intro key pod hpod hkey
  by_contra htoDelete
  obtain ⟨version,hversion,_⟩ := h.labels hpod (by simpa using htoDelete) List.not_mem_nil
  rw [hkey, hnone] at hversion
  cases hversion

theorem UpToDate.of_namespaces {store store' : Store L N M} (h : UpToDate podMetadata [] store) {name : String}
    (hpods : store'.pods = store.pods)
    (hnamespaces : ∀ other, other ≠ name → store'.namespaces.lookup other = store.namespaces.lookup other)
    (hnone : store.NoPods name) : UpToDate podMetadata [] store' := by
  refine ⟨fun {key pod} hpod htoDelete hnot => ?_,fun hpod => h.podObj (hpods ▸ hpod),
    fun hpod => h.identified (hpods ▸ hpod)⟩
  rw [hpods] at hpod
  have hkey : key.namespaceName ≠ name := by
    intro hkey
    rw [hnone key pod hpod hkey] at htoDelete
    cases htoDelete
  rw [hnamespaces _ hkey]
  exact h.labels hpod htoDelete hnot

theorem UpToDate.addNamespace {store : Store L N M} (h : UpToDate podMetadata [] store) {name : String}
    (version : Version N) (hnone : store.NoPods name) : UpToDate podMetadata [] (store.addNamespace name version) :=
  h.of_namespaces rfl (fun _ hother => Finmap.lookup_insert_of_ne _ hother) hnone

theorem UpToDate.deleteNamespace {store : Store L N M} (h : UpToDate podMetadata [] store) {name : String}
    (hnone : store.NoPods name) : UpToDate podMetadata [] (store.deleteNamespace name) :=
  h.of_namespaces rfl (fun _ hother => Finmap.lookup_erase_ne hother) hnone

/-! ## Upserts -/

section
variable [DecidableEq L] [EmptyCollection L]

/-- The requests of an upsert of a pod in the store succeed, or the endpoint is created again. -/
def Outcomes.Succeeds (o : Outcomes L N) : Prop :=
  o.allocateUpdated.isSome = true ∧ o.marshal = true ∧
    (o.patch = .success ∨ o.patch = .notFound ∧ o.allocateNew.isSome = true ∧ o.create = true)

omit [EmptyCollection L] in
theorem applyPatch_succeeds {o : Outcomes L N} (h : o.Succeeds) (newPEP : PodEndpoint L M) (old : Previous L)
    (inCache allocated : Bool) (s : Reconciler L N M) : (applyPatch o newPEP old inCache allocated s).2 = .ok () := by
  obtain ⟨_,hmarshal,hpatch⟩ := h
  unfold applyPatch
  dsimp only
  split_ifs with hsame hfailed
  · rfl
  · simp [hmarshal] at hfailed
  · rcases hpatch with hpatch | ⟨hpatch,hallocate,hcreate⟩
    · rw [hpatch]
    · obtain ⟨id,hid⟩ := Option.isSome_iff_exists.mp hallocate
      simp [hpatch, createEndpoint, hid, hcreate]

theorem handlePodUpsert_succeeds {o : Outcomes L N} (h : o.Succeeds) (newPEP : PodEndpoint L M) {old : PodEndpoint L M}
    {s : Reconciler L N M} (hold : s.store.pods.lookup newPEP.key = some old) : (handlePodUpsert o newPEP s).2 = .ok () := by
  obtain ⟨id,hid⟩ := Option.isSome_iff_exists.mp h.1
  simp only [handlePodUpsert, hold, patchEndpoint, hid]
  split_ifs
  · exact applyPatch_succeeds h _ _ _ _ _
  · exact applyPatch_succeeds h _ _ _ _ _

/-- A pod that has not changed is stored as it is. -/
theorem handlePodUpsert_self (o : Outcomes L N) {pod : PodEndpoint L M} {s : Reconciler L N M}
    (hpod : s.store.pods.lookup pod.key = some pod) (hid : pod.identityID ≠ 0) : handlePodUpsert o pod s = (s,.ok ()) := by
  have hstore : s.addPod pod = s := by rw [Reconciler.addPod, Store.addPod_self hpod]
  simp [handlePodUpsert, hpod, patchEndpoint, applyPatch, PodEndpoint.previous, PodEndpoint.sameNetworking, hid, hstore]

theorem handlePodUpsert_upToDate (o : Outcomes L N) {newPEP : PodEndpoint L M} {s : Reconciler L N M}
    (h : UpToDate podMetadata [] s.store) (hpodObj : newPEP.podObj.namespaceName = newPEP.key.namespaceName)
    (hlabels : ∃ version, s.store.namespaces.lookup newPEP.key.namespaceName = some version ∧
      newPEP.lbls = podMetadata version.labels newPEP.podObj) :
    UpToDate podMetadata [] (handlePodUpsert o newPEP s).1.store := by
  have hupserted := handlePodUpsert_upserted o newPEP s
  generalize (handlePodUpsert o newPEP s).1.store = store at hupserted ⊢
  generalize (handlePodUpsert o newPEP s).2 = result at hupserted
  cases hupserted with
  | refused _ => exact h
  | dropped _ => exact h.deletePod _
  | stored pep hkey hlbls _ hobj hid =>
    refine h.addPod (by rw [hobj, hkey, hpodObj]) hid (fun _ => ?_) (by simp)
    rw [hkey, hlbls, hobj]
    exact hlabels

/-- An upsert that succeeds makes its pod follow the namespace. -/
theorem handlePodUpsert_follows {o : Outcomes L N} (newPEP : PodEndpoint L M) {s : Reconciler L N M} {pending : List Key}
    (h : UpToDate podMetadata (newPEP.key :: pending) s.store) (hok : (handlePodUpsert o newPEP s).2 = .ok ())
    (hpodObj : newPEP.podObj.namespaceName = newPEP.key.namespaceName)
    (hlabels : ∃ version, s.store.namespaces.lookup newPEP.key.namespaceName = some version ∧
      newPEP.lbls = podMetadata version.labels newPEP.podObj) :
    UpToDate podMetadata pending (handlePodUpsert o newPEP s).1.store ∧
      (handlePodUpsert o newPEP s).1.store.namespaces = s.store.namespaces ∧
      ∀ key, key ≠ newPEP.key → (handlePodUpsert o newPEP s).1.store.pods.lookup key = s.store.pods.lookup key := by
  have hupserted := handlePodUpsert_upserted o newPEP s
  rw [hok] at hupserted
  generalize (handlePodUpsert o newPEP s).1.store = store at hupserted ⊢
  cases hupserted with
  | stored pep hkey hlbls _ hobj hid =>
    refine ⟨h.addPod (by rw [hobj, hkey, hpodObj]) hid (fun _ => ?_) ?_,rfl,fun key hne => ?_⟩
    · rw [hkey, hlbls, hobj]
      exact hlabels
    · intro key hpending hnot
      rw [hkey]
      exact (List.mem_cons.mp hpending).resolve_right hnot
    · rw [Store.lookup_addPod, if_neg (by rwa [hkey])]

/-! ## The pods of a namespace -/

/-- Nothing changes where all pods follow already. -/
theorem reconcilePods_of_upToDate (o : Key → Outcomes L N) (podList : List Key) {s : Reconciler L N M}
    (h : UpToDate podMetadata [] s.store) : reconcilePods podMetadata o podList s = (s,.ok ()) := by
  induction podList with
  | nil => rfl
  | cons key podList ih =>
    rw [reconcilePods]
    cases hpod : s.store.pods.lookup key with
    | none => exact ih
    | some pod =>
      dsimp only
      split_ifs with htoDelete
      · exact ih
      · obtain ⟨version,hversion,hlbls⟩ := h.labels hpod (by simpa using htoDelete) List.not_mem_nil
        have hversion' : s.store.namespaces.lookup pod.podObj.namespaceName = some version := by
          rw [h.podObj hpod, hversion]
        have hknown : s.knownNamespace (o key) pod.podObj = some version := by
          rw [Reconciler.knownNamespace, hversion']
          rfl
        have hself : ({ pod.deepCopy with lbls := podMetadata version.labels pod.podObj } : PodEndpoint L M) = pod := by
          rw [← hlbls]
          cases pod
          simp_all [PodEndpoint.deepCopy]
        have hpod' : s.store.pods.lookup pod.key = some pod := by rw [s.store.keyed hpod, hpod]
        simp only [ciliumEndpointsLabels_eq, hknown, addNamespace_self hversion', hself,
          handlePodUpsert_self (o key) hpod' (h.identified hpod)]
        exact ih

/-- All pods follow the version in the store if no request fails. -/
theorem reconcilePods_upToDate {o : Key → Outcomes L N} {podList : List Key} {s : Reconciler L N M} {name : String}
    {version : Version N} (h : UpToDate podMetadata podList s.store)
    (hversion : s.store.namespaces.lookup name = some version) (hnames : ∀ key ∈ podList, key.namespaceName = name)
    (hsucceeds : ∀ key ∈ podList, ∀ pod, s.store.pods.lookup key = some pod → pod.toDelete = false → (o key).Succeeds) :
    (reconcilePods podMetadata o podList s).2 = .ok () ∧
      UpToDate podMetadata [] (reconcilePods podMetadata o podList s).1.store ∧
      (reconcilePods podMetadata o podList s).1.store.namespaces.lookup name = some version := by
  induction podList generalizing s with
  | nil => exact ⟨rfl,h,hversion⟩
  | cons key podList ih =>
    obtain ⟨hname,hnames⟩ := List.forall_mem_cons.mp hnames
    obtain ⟨hkey,hsucceeds⟩ := List.forall_mem_cons.mp hsucceeds
    rw [reconcilePods]
    cases hpod : s.store.pods.lookup key with
    | none => exact ih (h.skip (by simp [hpod])) hversion hnames hsucceeds
    | some pod =>
      dsimp only
      split_ifs with htoDelete
      · refine ih (h.skip fun pod' hpod' => ?_) hversion hnames hsucceeds
        cases hpod.symm.trans hpod'
        exact htoDelete
      · have hversion' : s.store.namespaces.lookup pod.podObj.namespaceName = some version := by
          rw [h.podObj hpod, hname, hversion]
        have hknown : s.knownNamespace (o key) pod.podObj = some version := by
          rw [Reconciler.knownNamespace, hversion']
          rfl
        have ho := hkey pod hpod (by simpa using htoDelete)
        have hpodKey := s.store.keyed hpod
        have hpod' : s.store.pods.lookup pod.key = some pod := by rw [hpodKey, hpod]
        have hpending : UpToDate podMetadata (pod.key :: podList) s.store := by rwa [hpodKey]
        have hpodObj : pod.podObj.namespaceName = pod.key.namespaceName := h.podObj hpod'
        have hcached : s.store.namespaces.lookup pod.key.namespaceName = some version := by rw [← hpodObj, hversion']
        have hok := handlePodUpsert_succeeds ho
          { pod.deepCopy with lbls := podMetadata version.labels pod.podObj } hpod'
        have hfollows := handlePodUpsert_follows
          { pod.deepCopy with lbls := podMetadata version.labels pod.podObj } hpending hok
          hpodObj ⟨version,hcached,rfl⟩
        simp only [ciliumEndpointsLabels_eq, hknown, addNamespace_self hversion']
        generalize handlePodUpsert (o key) { pod.deepCopy with lbls := podMetadata version.labels pod.podObj } s =
          upserted at hok hfollows ⊢
        obtain ⟨s',result⟩ := upserted
        obtain ⟨huptodate,hnamespaces,hothers⟩ := hfollows
        cases hok
        refine ih huptodate (by rw [hnamespaces, hversion]) hnames ?_
        intro k hk pod' hpod' htoDelete'
        by_cases hsame : k = pod.key
        · rw [hsame, hpodKey]
          exact ho
        · rw [hothers k hsame] at hpod'
          exact hsucceeds k hk pod' hpod' htoDelete'

end

/-- While a namespace gets another version, exactly its pods are pending. -/
theorem UpToDate.relabel {store : Store L N M} (h : UpToDate podMetadata [] store) (order : FiniteMap.Order Key)
    (name : String) (version : Version N) :
    UpToDate podMetadata ((store.addNamespace name version).listPodKeysByNamespace order name)
      (store.addNamespace name version) := by
  refine ⟨fun {key pod} hpod htoDelete hnot => ?_,h.podObj,h.identified⟩
  have hkey : key.namespaceName ≠ name := by
    intro hkey
    rw [Store.mem_listPodKeysByNamespace, hpod] at hnot
    exact hnot ⟨rfl,hkey⟩
  have hlookup : (store.addNamespace name version).namespaces.lookup key.namespaceName =
      store.namespaces.lookup key.namespaceName := Finmap.lookup_insert_of_ne _ hkey
  rw [hlookup]
  exact h.labels hpod htoDelete List.not_mem_nil

def Store.Follows (podMetadata : N → Pod M → L) (store : Store L N M) (name : String) (labels : N) : Prop :=
  ∀ key pod, store.pods.lookup key = some pod → key.namespaceName = name → pod.toDelete = false →
    pod.lbls = podMetadata labels pod.podObj

theorem UpToDate.follows {store : Store L N M} (h : UpToDate podMetadata [] store) {name : String} {version : Version N}
    (hversion : store.namespaces.lookup name = some version) : store.Follows podMetadata name version.labels := by
  intro key pod hpod hkey htoDelete
  obtain ⟨version',hversion',hlbls⟩ := h.labels hpod htoDelete List.not_mem_nil
  rw [hkey, hversion] at hversion'
  cases hversion'
  exact hlbls

/-! ## Runs -/

/-- What the API server sees to: a pod comes under its own key, and one version of a namespace has one set of
labels. -/
def Lawful (s : Reconciler L N M) : Event L N M → Prop
  | .reconcilePod _ key (some pod) => pod.key = key
  | .reconcileNamespace _ _ (some ns) => ∀ version, s.store.namespaces.lookup ns.name = some version →
      version.resourceVersion = ns.resourceVersion → version.labels = ns.labels
  | _ => True

def RelabelSucceeds (s : Reconciler L N M) (o : Key → Outcomes L N) (ns : Namespace N) : Prop :=
  ∀ old, s.store.namespaces.lookup ns.name = some old → old.labels ≠ ns.labels →
    ∀ key pod, s.store.pods.lookup key = some pod → key.namespaceName = ns.name → pod.toDelete = false → (o key).Succeeds

/-- No request for a pod fails when its namespace gets other labels, and a namespace goes after its pods. -/
def ReachesPods (s : Reconciler L N M) : Event L N M → Prop
  | .reconcileNamespace o _ (some ns) =>
      if ns.deletionTimestamp = true then s.store.NoPods ns.name else RelabelSucceeds s o ns
  | .handleNamespaceDelete name => s.store.NoPods name
  | _ => True

section
variable [DecidableEq L] [EmptyCollection L] [DecidableEq N]

theorem reconcileNamespace_reaches {o : Key → Outcomes L N} {order : FiniteMap.Order Key} {ns : Namespace N}
    {s : Reconciler L N M} (h : UpToDate podMetadata [] s.store) (hns : ns.deletionTimestamp = false)
    (hlawful : Lawful s (.reconcileNamespace o order (some ns))) (hsucceeds : RelabelSucceeds s o ns) :
    (reconcileNamespace podMetadata o order (some ns) s).2 = .ok () ∧
      UpToDate podMetadata [] (reconcileNamespace podMetadata o order (some ns) s).1.store ∧
      (reconcileNamespace podMetadata o order (some ns) s).1.store.Follows podMetadata ns.name ns.labels := by
  unfold reconcileNamespace
  simp only [hns, Bool.false_eq_true, if_false]
  cases hold : s.store.namespaces.lookup ns.name with
  | none =>
    have hnone := h.noPods hold
    refine ⟨rfl,h.addNamespace ns.toVersion hnone,fun key pod hpod hkey htoDelete => ?_⟩
    rw [hnone key pod hpod hkey] at htoDelete
    cases htoDelete
  | some old =>
    dsimp only
    split_ifs with hversion hlabels
    · have hsame := hlawful old hold hversion
      exact ⟨rfl,h,hsame ▸ h.follows hold⟩
    · exact ⟨rfl,h,hlabels ▸ h.follows hold⟩
    · have hcached : (s.addNamespace ns.name ns.toVersion).store.namespaces.lookup ns.name = some ns.toVersion :=
        Finmap.lookup_insert _
      have hnames : ∀ key ∈ (s.addNamespace ns.name ns.toVersion).store.listPodKeysByNamespace order ns.name,
          key.namespaceName = ns.name := fun key hkey => ((Store.mem_listPodKeysByNamespace _ _ _ _).mp hkey).2
      obtain ⟨hok,huptodate,hversion'⟩ := reconcilePods_upToDate (s := s.addNamespace ns.name ns.toVersion)
        (h.relabel order ns.name ns.toVersion) hcached hnames
        fun key hkey pod hpod htoDelete => hsucceeds old hold hlabels key pod hpod (hnames key hkey) htoDelete
      exact ⟨congrArg (Result.wrap _) hok,huptodate,huptodate.follows hversion'⟩

omit [EmptyCollection L] [DecidableEq N] in
theorem handlePodDelete_upToDate (o : Outcomes L N) (key : Key) {s : Reconciler L N M}
    (h : UpToDate podMetadata [] s.store) : UpToDate podMetadata [] (handlePodDelete o key s).1.store := by
  unfold handlePodDelete Store.getToDeletePod
  cases hpod : s.store.pods.lookup key with
  | none => exact h
  | some pod =>
    have hkey := s.store.keyed hpod
    have hid : pod.identityID ≠ 0 := h.identified hpod
    have hpodObj : pod.podObj.namespaceName = pod.key.namespaceName := by rw [hkey, h.podObj hpod]
    have hmarked : UpToDate podMetadata [] (s.store.addPod { pod with toDelete := true }) :=
      h.addPod hpodObj hid (fun hfalse => absurd hfalse (by simp)) (by simp)
    dsimp only
    split_ifs
    · exact hmarked
    · exact hmarked.deletePod key

theorem step_upToDate (s : Reconciler L N M) (event : Event L N M) (h : UpToDate podMetadata [] s.store)
    (hevent : Lawful s event ∧ ReachesPods s event) : UpToDate podMetadata [] (step podMetadata s event).store := by
  obtain ⟨hlawful,hreaches⟩ := hevent
  cases event with
  | reconcilePod o key pod =>
    rw [step]
    rcases reconcilePod_cases podMetadata o key pod s with hdeleted | hsame | ⟨pod,version,rfl,hdeletion,hips,hknown⟩
    · rw [hdeleted]
      exact handlePodDelete_upToDate o key h
    · rwa [hsame]
    · rw [reconcilePod_upsert podMetadata hdeletion hips hknown]
      have hkey : pod.key = key := hlawful
      have hadded : UpToDate podMetadata [] (s.addNamespace pod.namespaceName version).store := by
        cases hcached : s.store.namespaces.lookup pod.namespaceName with
        | some version' =>
          have hsame : version' = version := by simpa [Reconciler.knownNamespace, hcached] using hknown
          rwa [addNamespace_self (hsame ▸ hcached)]
        | none => exact h.addNamespace version (h.noPods hcached)
      refine handlePodUpsert_upToDate o hadded (by rw [← hkey]; rfl) ⟨version,?_,rfl⟩
      rw [← hkey]
      exact Finmap.lookup_insert _
  | handlePodDelete o key => exact handlePodDelete_upToDate o key h
  | reconcilePodsInNamespace o order name =>
    rw [step, reconcilePodsInNamespace, reconcilePods_of_upToDate o _ h]
    exact h
  | reconcileNamespace o order ns =>
    cases ns with
    | none => exact h
    | some ns =>
      cases hns : ns.deletionTimestamp with
      | true =>
        have hnone : s.store.NoPods ns.name := by simpa [ReachesPods, hns] using hreaches
        have hstep : step podMetadata s (.reconcileNamespace o order (some ns)) = handleNamespaceDelete ns.name s := by
          simp [step, reconcileNamespace, hns]
        rw [hstep]
        exact h.deleteNamespace hnone
      | false =>
        have hsucceeds : RelabelSucceeds s o ns := by simpa [ReachesPods, hns] using hreaches
        exact (reconcileNamespace_reaches h hns hlawful hsucceeds).2.1
  | handleNamespaceDelete name => exact h.deleteNamespace hreaches

/-- While the requests for relabelled pods succeed and namespaces go after their pods, a namespace that was reconciled
without an error has reached all of its pods. -/
theorem namespace_reaches_pods (podMetadata : N → Pod M → L) (events : List (Event L N M))
    (hlawful : Along (step podMetadata) Lawful Reconciler.new events)
    (hreaches : Along (step podMetadata) ReachesPods Reconciler.new events) (earlier : List (Event L N M))
    (o : Key → Outcomes L N) (order : FiniteMap.Order Key) (ns : Namespace N) (hns : ns.deletionTimestamp = false)
    (hearlier : earlier ++ [.reconcileNamespace o order (some ns)] <+: events) :
    (reconcileNamespace podMetadata o order (some ns) (run (step podMetadata) Reconciler.new earlier)).2 = .ok () ∧
      (reconcileNamespace podMetadata o order (some ns) (run (step podMetadata) Reconciler.new earlier)).1.store.Follows
        podMetadata ns.name ns.labels := by
  obtain ⟨later,rfl⟩ := hearlier
  have hlawful := (along_append _ _ _ _).mp ((along_append _ _ _ _).mp hlawful).1
  have hreaches := (along_append _ _ _ _).mp ((along_append _ _ _ _).mp hreaches).1
  have hnew : UpToDate podMetadata [] (Reconciler.new : Reconciler L N M).store := by
    refine ⟨fun hpod => ?_,fun hpod => ?_,fun hpod => ?_⟩ <;> simp [Reconciler.new, Store.new] at hpod
  have huptodate : UpToDate podMetadata [] (run (step podMetadata) Reconciler.new earlier).store :=
    invariant (I := fun s => UpToDate podMetadata [] s.store) step_upToDate hnew (hlawful.1.and hreaches.1)
  have hsucceeds : RelabelSucceeds (run (step podMetadata) Reconciler.new earlier) o ns := by
    have hlast := hreaches.2.1
    simpa [ReachesPods, hns] using hlast
  have hreached := reconcileNamespace_reaches huptodate hns hlawful.2.1 hsucceeds
  exact ⟨hreached.1,hreached.2.2⟩

end

def relabelled : Namespace (List String) where
  resourceVersion := "2"
  labels := ["team=b"]
  name := "apps"
  deletionTimestamp := false

def webEvent : Event (List String) (List String) (List String) :=
  .reconcilePod answered ⟨"apps","web"⟩ (some (webPod "10.0.0.1"))

/-- With one pod there is one order. -/
theorem listPodKeys_webEvent (order : FiniteMap.Order Key) :
    ((step joinedLabels Reconciler.new webEvent).addNamespace "apps" relabelled.toVersion).store.listPodKeysByNamespace
      order "apps" = [⟨"apps","web"⟩] := by
  have hkeys : (((step joinedLabels Reconciler.new webEvent).addNamespace "apps" relabelled.toVersion).store.pods.keys.filter
      fun key => (((step joinedLabels Reconciler.new webEvent).addNamespace "apps"
        relabelled.toVersion).store.pods.lookup key).any fun pod => pod.key.namespaceName = "apps") =
      {⟨"apps","web"⟩} := by decide
  rw [Store.listPodKeysByNamespace, hkeys, FiniteMap.Order.list_singleton]

/-- The patch fails, and the repeated call finds the version in the store. -/
theorem retriedNamespace_misses_pod :
    let s := run (step joinedLabels) Reconciler.new
      [webEvent,.reconcileNamespace (fun _ => { answered with patch := .failed }) (.arbitrary Key) (some relabelled)]
    let retried := reconcileNamespace joinedLabels (fun _ => answered) (.arbitrary Key) (some relabelled) s
    retried.2 = .ok () ∧ (retried.1.store.pods.lookup ⟨"apps","web"⟩).map (fun pod => (pod.lbls,pod.toDelete)) =
      some (["team=a","app=web"],false) := by
  have hfailed : step joinedLabels (step joinedLabels Reconciler.new webEvent)
      (.reconcileNamespace (fun _ => { answered with patch := .failed }) (.arbitrary Key) (some relabelled)) =
      (reconcilePods joinedLabels (fun _ => { answered with patch := .failed }) [⟨"apps","web"⟩]
        ((step joinedLabels Reconciler.new webEvent).addNamespace "apps" relabelled.toVersion)).1 := by
    rw [← listPodKeys_webEvent (.arbitrary Key)]
    rfl
  rw [run_cons, run_cons, hfailed]
  decide

theorem relabelledNamespace_reaches_pod :
    (reconcileNamespace joinedLabels (fun _ => answered) (.arbitrary Key) (some relabelled)
        (run (step joinedLabels) Reconciler.new [webEvent])).2 = .ok () ∧
      (reconcileNamespace joinedLabels (fun _ => answered) (.arbitrary Key) (some relabelled)
        (run (step joinedLabels) Reconciler.new [webEvent])).1.store.Follows joinedLabels "apps" ["team=b"] := by
  have hcached : (step joinedLabels Reconciler.new webEvent).store.namespaces.lookup "apps" = some ⟨"1",["team=a"]⟩ := rfl
  refine namespace_reaches_pods joinedLabels
    [webEvent,.reconcileNamespace (fun _ => answered) (.arbitrary Key) (some relabelled)] ⟨rfl,?_,trivial⟩
    ⟨trivial,?_,trivial⟩ [webEvent] (fun _ => answered) (.arbitrary Key) relabelled rfl (List.prefix_refl _)
  · intro version hversion hsame
    cases hcached.symm.trans hversion
    exact absurd hsame (by decide)
  · exact fun _ _ _ _ _ _ _ _ => ⟨rfl,rfl,.inl rfl⟩

end Retina.Endpoints
