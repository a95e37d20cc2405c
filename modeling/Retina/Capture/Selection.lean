import Retina.Capture.Targets

/-! # The pods that a capture selects

A capture with a pod selector is to run on exactly the nodes of the pods that match it, in the
namespaces that match the namespace selector, or in the capture's own namespace if there is no
such selector. A pod that is not scheduled yet is on no node.
-/
namespace Retina.Capture

/-! ## Addresses by node -/

def ipsNamed (pods : List Pod) (name : String) : Option (Multiset String) :=
  if ∃ p ∈ pods, p.nodeName = name then some ((pods.filter (·.nodeName = name)).flatMap Pod.podIPs) else none

def ipsOnNode (cluster : Cluster) (pods : List Pod) (name : String) : Option (Multiset String) :=
  if name ∈ cluster.nodes.map Node.name then ipsNamed pods name else none

def ipsAt (targets : CaptureTargetsOnNode) (node : String) : Option (Multiset String) :=
  (targets.lookup node).map fun target => (target.podIpAddresses : Multiset String)

theorem ipsNamed_eq_of_perm {pods pods' : List Pod} (h : pods.Perm pods') (node : String) :
    ipsNamed pods node = ipsNamed pods' node := by
  have hmem : (∃ p ∈ pods, p.nodeName = node) ↔ ∃ p ∈ pods', p.nodeName = node := by simp only [h.mem_iff]
  have hips : (((pods.filter (·.nodeName = node)).flatMap Pod.podIPs : List String) : Multiset String) =
      (pods'.filter (·.nodeName = node)).flatMap Pod.podIPs :=
    Multiset.coe_eq_coe.mpr ((h.filter _).flatMap_right _)
  simp only [ipsNamed, hmem, hips]

theorem ipsNamed_ne_none_iff (pods : List Pod) (node : String) :
    ipsNamed pods node ≠ none ↔ ∃ p ∈ pods, p.nodeName = node := by
  unfold ipsNamed
  split_ifs with h <;> simp [h]

/-- The pods are on nodes of the cluster, and have the addresses of other pods there. -/
theorem ipsNamed_eq_ipsOnNode_iff (cluster : Cluster) (pods selected : List Pod) :
    (∀ node, ipsNamed pods node = ipsOnNode cluster selected node) ↔
      (∀ p ∈ pods, p.nodeName ∈ cluster.nodes.map Node.name) ∧
        ∀ node, ipsOnNode cluster pods node = ipsOnNode cluster selected node := by
  constructor
  · intro h
    have hnodes : ∀ p ∈ pods, p.nodeName ∈ cluster.nodes.map Node.name := by
      intro p hp
      have hsome := (ipsNamed_ne_none_iff pods p.nodeName).mpr ⟨p,hp,rfl⟩
      rw [h, ipsOnNode] at hsome
      by_contra hnot
      exact hsome (if_neg hnot)
    refine ⟨hnodes,fun node => ?_⟩
    by_cases hnode : node ∈ cluster.nodes.map Node.name
    · rw [ipsOnNode, if_pos hnode, h]
    · rw [ipsOnNode, ipsOnNode, if_neg hnode, if_neg hnode]
  · rintro ⟨hnodes,h⟩ node
    by_cases hnode : node ∈ cluster.nodes.map Node.name
    · rw [← h, ipsOnNode, if_pos hnode]
    · rw [ipsOnNode, if_neg hnode, ipsNamed, if_neg]
      rintro ⟨p,hp,rfl⟩
      exact hnode (hnodes p hp)

theorem lookup_addPod (targets : CaptureTargetsOnNode) (hostname : String) (ips : List String) (node : String) :
    (CaptureTargetsOnNode.addPod targets hostname ips).lookup node =
      if node = hostname then
        some { (targets.lookup hostname).getD {} with
          podIpAddresses := ((targets.lookup hostname).getD {}).podIpAddresses ++ ips }
      else targets.lookup node := by
  unfold CaptureTargetsOnNode.addPod
  cases h : targets.lookup hostname <;> simp [FiniteMap.lookup_insert_eq_ite]

theorem lookup_addPods (targets : CaptureTargetsOnNode) (pods : List Pod) (node : String) :
    (addPods targets pods).lookup node =
      if ∃ p ∈ pods, p.nodeName = node then
        some { (targets.lookup node).getD {} with
          podIpAddresses := ((targets.lookup node).getD {}).podIpAddresses ++
            (pods.filter (·.nodeName = node)).flatMap Pod.podIPs }
      else targets.lookup node := by
  induction pods generalizing targets with
  | nil => simp [addPods]
  | cons p pods ih =>
    have hstep : addPods targets (p :: pods) = addPods (targets.addPod p.nodeName p.podIPs) pods := rfl
    rw [hstep, ih, lookup_addPod]
    by_cases hp : p.nodeName = node
    · subst hp
      by_cases hmem : ∃ q ∈ pods, q.nodeName = p.nodeName
      · simp [hmem]
      · have hnone : pods.filter (·.nodeName = p.nodeName) = [] :=
          List.filter_eq_nil_iff.mpr fun q hq he => hmem ⟨q,hq,of_decide_eq_true he⟩
        simp [hmem, hnone]
    · simp [hp, Ne.symm hp]

theorem ipsAt_addPods (pods : List Pod) (node : String) : ipsAt (addPods ∅ pods) node = ipsNamed pods node := by
  rw [ipsAt, lookup_addPods, ipsNamed]
  split_ifs <;> simp

theorem mem_keys_iff (targets : CaptureTargetsOnNode) (node : String) :
    node ∈ targets.keys ↔ ipsAt targets node ≠ none := by
  rw [Finmap.mem_keys, ← not_iff_not, not_not, ← Finmap.lookup_eq_none, ipsAt, Option.map_eq_none_iff]

theorem mem_keys_addPods (pods : List Pod) (node : String) :
    node ∈ (addPods ∅ pods).keys ↔ ∃ p ∈ pods, p.nodeName = node := by
  rw [mem_keys_iff, ipsAt_addPods, ipsNamed_ne_none_iff]

theorem ipsAt_updateNodeOS (targets : CaptureTargetsOnNode) (hostname os node : String) :
    ipsAt (CaptureTargetsOnNode.updateNodeOS targets hostname os) node = ipsAt targets node := by
  unfold CaptureTargetsOnNode.updateNodeOS
  cases h : targets.lookup hostname with
  | none => rfl
  | some target =>
    rw [ipsAt, ipsAt, FiniteMap.lookup_insert_eq_ite]
    split_ifs with he
    · rw [he, h]
      rfl
    · rfl

theorem ipsAt_foldl_updateNodeOS (targets : CaptureTargetsOnNode) (nodes : List Node) (node : String) :
    ipsAt (nodes.foldl (fun targets n =>
      CaptureTargetsOnNode.updateNodeOS targets n.name ((n.labels.lookup "kubernetes.io/os").getD "")) targets) node =
        ipsAt targets node := by
  induction nodes generalizing targets with
  | nil => rfl
  | cons n nodes ih => rw [List.foldl_cons, ih, ipsAt_updateNodeOS]

/-! ## What the requests answer -/

/-- The API server does not answer, or a capture is in progress on a Windows node: no targets are
computed. -/
def Refused {β : Type} : Except TargetsError β → Prop
  | .error (.api _) => True
  | .error (.windowsCaptureRunning _) => True
  | _ => False

/-- The computation has the given result unless it is refused. -/
def Settles {β : Type} (x v : Except TargetsError β) : Prop := Refused x ∨ x = v

theorem Settles.bind {β γ : Type} {x v : Except TargetsError β} {f g : β → Except TargetsError γ}
    (hx : Settles x v) (hf : ∀ b, v = .ok b → Settles (f b) (g b)) : Settles (x >>= f) (v >>= g) := by
  rcases hx with hx | rfl
  · cases x with
    | error e => exact .inl (by cases e <;> simp_all [Refused, Bind.bind, Except.bind])
    | ok b => exact hx.elim
  · cases x with
    | error e => exact .inr rfl
    | ok b => exact hf b rfl

theorem Settles.bind_ok {β γ : Type} {x : Except TargetsError β} {b : β} {f : β → Except TargetsError γ}
    {v : Except TargetsError γ} (hx : Settles x (.ok b)) (hf : Settles (f b) v) : Settles (x >>= f) v :=
  hx.bind (g := fun _ => v) fun b' hb => by cases hb; exact hf

theorem Settles.bind_error {β γ : Type} {x : Except TargetsError β} {e : TargetsError}
    (hx : Settles x (.error e)) (f : β → Except TargetsError γ) : Settles (x >>= f) (.error e) :=
  hx.bind (g := fun _ => .error e) fun _ hb => by cases hb

theorem Settles.rfl {β : Type} {x : Except TargetsError β} : Settles x x := .inr (Eq.refl x)

theorem settles_answer (api : Api) {β : Type} (request : Request) (objects : β) :
    Settles (api.answer request objects) (.ok objects) := by
  unfold Api.answer
  cases api.failure request with
  | none => exact .rfl
  | some e => exact .inl trivial

theorem settles_foldlM {β δ : Type} {f g : β → δ → Except TargetsError β} {ds : List δ}
    (h : ∀ d ∈ ds, ∀ b, Settles (f b d) (g b d)) (b : β) : Settles (ds.foldlM f b) (ds.foldlM g b) := by
  induction ds generalizing b with
  | nil => exact .rfl
  | cons d ds ih =>
    rw [List.forall_mem_cons] at h
    exact (h.1 b).bind fun b' _ => ih h.2 b'

/-! ## The pods that the code lists -/

section
variable (t : SelectorText) (api : Api)

def matching (podSelector : LabelSelector) (namespaceName : String) : List Pod :=
  api.cluster.pods.filter fun p => p.namespaceName = namespaceName && api.selects podSelector p.labels

def namespacesOf : Option LabelSelector → Except TargetsError (List String)
  | none => .ok ["default"]
  | some s =>
    if t.parses s then .ok ((api.cluster.namespaces.filter fun ns => api.selects s ns.labels).map Namespace.name)
    else .error (.selector s)

def podsOf (namespaceSelector : Option LabelSelector) (podSelector : LabelSelector) : Except TargetsError (List Pod) := do
  let names ← namespacesOf t api namespaceSelector
  if t.parses podSelector ∨ names = [] then .ok (names.flatMap (matching api podSelector))
  else .error .nilSelector

variable {t} (order : FiniteMap.Order String)

theorem named_of_namespacesOf {namespaceSelector : Option LabelSelector} {names : List String}
    (h : namespacesOf t api namespaceSelector = .ok names) : ∀ name ∈ names, name ≠ "" := by
  cases namespaceSelector with
  | none =>
    cases h
    simp
  | some s =>
    simp only [namespacesOf] at h
    split_ifs at h
    cases h
    intro name hname
    obtain ⟨ns,hns,rfl⟩ := List.mem_map.mp hname
    exact api.cluster.named ns (List.mem_filter.mp hns).1

theorem settles_listedNamespaces (namespaceSelector : Option LabelSelector) :
    Settles (listedNamespaces t api namespaceSelector) (namespacesOf t api namespaceSelector) := by
  cases namespaceSelector with
  | none => exact .rfl
  | some s =>
    dsimp only [listedNamespaces, namespacesOf, parseSelector]
    split_ifs with hp
    · exact (settles_answer api (.listNamespaces s) _).bind fun _ _ => .rfl
    · exact .rfl

theorem settles_addNamespace (podSelector : LabelSelector) (targets : CaptureTargetsOnNode) {name : String}
    (hname : name ≠ "") :
    Settles (addNamespace t api podSelector targets name)
      (if t.parses podSelector then .ok (addPods targets (matching api podSelector name))
        else .error .nilSelector) := by
  unfold addNamespace parseUnchecked
  split_ifs with hp
  · have hlist : Settles (api.listPods name podSelector) (.ok (matching api podSelector name)) := by
      have := settles_answer api (.listPods name podSelector) (matching api podSelector name)
      simpa [Api.listPods, matching, hname] using this
    exact hlist.bind fun _ _ => .rfl
  · exact .rfl

theorem addPods_append (targets : CaptureTargetsOnNode) (pods pods' : List Pod) :
    addPods targets (pods ++ pods') = addPods (addPods targets pods) pods' := List.foldl_append

theorem foldlM_addPods (podSelector : LabelSelector) (names : List String) (targets : CaptureTargetsOnNode) :
    names.foldlM (fun targets name =>
        if t.parses podSelector then .ok (addPods targets (matching api podSelector name))
        else .error .nilSelector) targets =
      if t.parses podSelector ∨ names = [] then
        .ok (addPods targets (names.flatMap (matching api podSelector)))
      else (.error .nilSelector : Except TargetsError CaptureTargetsOnNode) := by
  by_cases hp : t.parses podSelector = true
  · simp only [hp, if_true, true_or]
    induction names generalizing targets with
    | nil => rfl
    | cons name names ih =>
      rw [List.foldlM_cons, List.flatMap_cons, addPods_append]
      exact ih _
  · cases names with
    | nil => simp [addPods, pure, Except.pure]
    | cons name names => simp [hp, bind, Except.bind]

theorem settles_calculateCaptureTargetsByPodSelector (namespaceSelector : Option LabelSelector)
    (podSelector : LabelSelector) :
    Settles (calculateCaptureTargetsByPodSelector t api namespaceSelector podSelector)
      (do
        let pods ← podsOf t api namespaceSelector podSelector
        .ok (addPods ∅ pods)) := by
  have hvalue : (do
      let pods ← podsOf t api namespaceSelector podSelector
      .ok (addPods ∅ pods)) =
        namespacesOf t api namespaceSelector >>= fun names => names.foldlM (fun targets name =>
          if t.parses podSelector then .ok (addPods targets (matching api podSelector name))
          else .error .nilSelector) ∅ := by
    unfold podsOf
    cases namespacesOf t api namespaceSelector with
    | error e => rfl
    | ok names =>
      refine Eq.trans ?_ (foldlM_addPods api podSelector names ∅).symm
      simp only [bind, Except.bind]
      split_ifs <;> rfl
  rw [hvalue]
  refine (settles_listedNamespaces api namespaceSelector).bind fun names hnames => settles_foldlM ?_ ∅
  intro name hname targets
  exact settles_addNamespace api podSelector targets (named_of_namespacesOf api hnames name hname)

def targetPods (t : SelectorText) (api : Api) (namespaceSelector : Option LabelSelector)
    (podSelector : LabelSelector) : Except TargetsError (List Pod) := do
  let pods ← podsOf t api namespaceSelector podSelector
  if pods = [] then .error .noTargetsSelected
  else if pods.all fun p => t.labelValue p.nodeName then .ok pods
  else .error .nilSelector

theorem keys_addPods_eq_empty_iff (pods : List Pod) : (addPods ∅ pods).keys = ∅ ↔ pods = [] := by
  constructor
  · intro h
    refine List.eq_nil_iff_forall_not_mem.mpr fun p hp => ?_
    have hkey := (mem_keys_addPods pods p.nodeName).mpr ⟨p,hp,rfl⟩
    rw [h] at hkey
    cases hkey
  · rintro rfl
    rfl

theorem parses_hostname_addPods {pods : List Pod} (h : pods ≠ []) :
    t.parses (hostnameSelector (order.list (addPods ∅ pods).keys)) = pods.all fun p => t.labelValue p.nodeName := by
  have hne : order.list (addPods ∅ pods).keys ≠ [] := by
    obtain ⟨p,pods,rfl⟩ := List.exists_cons_of_ne_nil h
    exact List.ne_nil_of_mem ((order.mem_list _ _).mpr ((mem_keys_addPods _ p.nodeName).mpr ⟨p,List.mem_cons_self,rfl⟩))
  rw [t.parses_hostname _ hne, Bool.eq_iff_iff]
  simp only [List.all_eq_true, order.mem_list, mem_keys_addPods]
  exact ⟨fun h p hp => h _ ⟨p,hp,rfl⟩,fun h _ ⟨p,hp,he⟩ => he ▸ h p hp⟩

theorem settles_updateCaptureTargetsOSOnNode {pods : List Pod} (h : pods ≠ []) :
    ∃ targets, (∀ node, ipsAt targets node = ipsNamed pods node) ∧
      Settles (updateCaptureTargetsOSOnNode t api order (addPods ∅ pods))
        (if pods.all fun p => t.labelValue p.nodeName then .ok targets else .error .nilSelector) := by
  let nodes := api.cluster.nodes.filter fun n =>
    api.selects (hostnameSelector (order.list (addPods ∅ pods).keys)) n.labels
  refine ⟨nodes.foldl (fun targets n =>
    CaptureTargetsOnNode.updateNodeOS targets n.name ((n.labels.lookup "kubernetes.io/os").getD "")) (addPods ∅ pods),
    fun node => by rw [ipsAt_foldl_updateNodeOS, ipsAt_addPods],?_⟩
  unfold updateCaptureTargetsOSOnNode parseUnchecked
  rw [parses_hostname_addPods order h]
  split_ifs with hp
  · exact (settles_answer api (.listNodes _) nodes).bind fun _ _ => .rfl
  · exact .rfl

theorem settles_validateNoRunningWindowsCapture (targets : CaptureTargetsOnNode) :
    Settles (validateNoRunningWindowsCapture t api targets) (.ok ()) := by
  unfold validateNoRunningWindowsCapture parseUnchecked
  rw [if_pos t.parses_capturePod]
  refine (settles_answer api (.listPods "" capturePodSelector) _).bind_ok ?_
  dsimp only
  split_ifs with h
  · exact .rfl
  · exact .inl trivial

theorem validateTargetSelector_podSelector {target : CaptureTarget} {podSelector : LabelSelector}
    (hpods : target.podSelector = some podSelector) (hvalid : validateTargetSelector target = .ok ()) :
    target.nodeSelector = none ∧ target.podNames = [] := by
  simp only [validateTargetSelector, hpods, Option.isSome_some, or_true, and_true, true_or] at hvalid
  split_ifs at hvalid with h₁ h₂ h₃
  exact ⟨by simpa using h₂,by simpa using h₃⟩

theorem settles_getCaptureTargetsOnNode {target : CaptureTarget} {podSelector : LabelSelector}
    (hpods : target.podSelector = some podSelector) (hvalid : validateTargetSelector target = .ok ())
    (namespaceName : String) :
    Settles (getCaptureTargetsOnNode t api target namespaceName) (do
      let pods ← podsOf t api target.namespaceSelector podSelector
      if pods = [] then .error .noTargetsSelected else .ok (addPods ∅ pods)) := by
  obtain ⟨hnode,hnames⟩ := validateTargetSelector_podSelector hpods hvalid
  have hget : getCaptureTargetsOnNode t api target namespaceName =
      calculateCaptureTargetsByPodSelector t api target.namespaceSelector podSelector >>= fun targets =>
        if targets.keys = ∅ then .error .noTargetsSelected else .ok targets := by
    simp only [getCaptureTargetsOnNode, hnode, hpods, hnames, if_true]
    rfl
  rw [hget]
  have hcalc := settles_calculateCaptureTargetsByPodSelector (t := t) api target.namespaceSelector podSelector
  cases hp : podsOf t api target.namespaceSelector podSelector with
  | error e =>
    rw [hp] at hcalc
    exact hcalc.bind_error _
  | ok pods =>
    rw [hp] at hcalc
    refine hcalc.bind_ok ?_
    simp only [keys_addPods_eq_empty_iff]
    exact .rfl

theorem not_refused_bind {β γ : Type} {x : Except TargetsError β} {f : β → Except TargetsError γ} (hx : ¬Refused x)
    (hf : ∀ b, ¬Refused (f b)) : ¬Refused (x >>= f) := by
  cases x with
  | error e => cases e <;> simp_all [Refused, Bind.bind, Except.bind]
  | ok b => exact hf b

theorem not_refused_foldlM {β δ : Type} {f : β → δ → Except TargetsError β} (h : ∀ b d, ¬Refused (f b d)) (ds : List δ)
    (b : β) : ¬Refused (ds.foldlM f b) := by
  induction ds generalizing b with
  | nil => exact id
  | cons d ds ih => exact not_refused_bind (h b d) ih

theorem not_refused_parse (s : LabelSelector) : ¬Refused (parseSelector t s) ∧ ¬Refused (parseUnchecked t s) := by
  unfold parseSelector parseUnchecked
  split_ifs <;> exact ⟨id,id⟩

theorem not_refused_getCaptureTargetsOnNode (hanswer : ∀ {β : Type} request (b : β), ¬Refused (api.answer request b))
    (target : CaptureTarget) (namespaceName : String) :
    ¬Refused (getCaptureTargetsOnNode t api target namespaceName) := by
  unfold getCaptureTargetsOnNode
  refine not_refused_bind ?_ fun targets => not_refused_bind ?_ fun targets => not_refused_bind ?_ fun targets => ?_
  · cases target.nodeSelector with
    | none => exact id
    | some s => exact not_refused_bind (not_refused_parse s).1 fun _ => not_refused_bind (hanswer _ _) fun _ => id
  · cases target.podSelector with
    | none => exact id
    | some s =>
      refine not_refused_bind ?_ fun names => not_refused_foldlM (fun _ _ => ?_) names ∅
      · cases target.namespaceSelector with
        | none => exact id
        | some s => exact not_refused_bind (not_refused_parse s).1 fun _ => not_refused_bind (hanswer _ _) fun _ => id
      · exact not_refused_bind (not_refused_parse s).2 fun _ => not_refused_bind (hanswer _ _) fun _ => id
  · split_ifs
    · exact id
    · refine not_refused_foldlM (fun _ podName => not_refused_bind ?_ fun _ => id) _ _
      unfold Api.getPod
      split
      · exact id
      · split <;> exact id
  · split_ifs <;> exact id

/-- A cluster that answers, without a capture in progress, refuses nothing. -/
theorem not_refused (hfailure : ∀ request, api.failure request = none)
    (hpods : ∀ p ∈ api.cluster.pods, api.selects capturePodSelector p.labels = true → p.inProgress = false)
    (target : CaptureTarget) (namespaceName : String) :
    ¬Refused (calculateCaptureTargetsOnNode t api order target namespaceName) := by
  have hanswer : ∀ {β : Type} request (b : β), ¬Refused (api.answer request b) := by
    intro β request b
    rw [Api.answer, hfailure]
    exact id
  unfold calculateCaptureTargetsOnNode
  refine not_refused_bind ?_ fun _ =>
    not_refused_bind (not_refused_getCaptureTargetsOnNode api hanswer target namespaceName) fun targets =>
      not_refused_bind (not_refused_bind (not_refused_parse _).2 fun _ => not_refused_bind (hanswer _ _) fun _ => id)
        fun targets => not_refused_bind ?_ fun _ => id
  · unfold validateTargetSelector
    split_ifs <;> exact id
  · unfold validateNoRunningWindowsCapture parseUnchecked Api.listPods Api.answer
    rw [if_pos t.parses_capturePod]
    simp only [bind, Except.bind, hfailure]
    have hnone : ∀ pods : List Pod, (∀ p ∈ pods, p.inProgress = false) →
        ((pods.filter fun p => p.inProgress && ((targets.lookup p.nodeName).map NodeTarget.os = some "windows")).map
          Pod.nodeName).dedup = [] := by
      intro pods h
      rw [List.filter_eq_nil_iff.mpr fun p hp => by simp [h p hp]]
      rfl
    rw [if_pos (hnone _ fun p hp => ?_)]
    · exact id
    · obtain ⟨hmem,hselects⟩ := List.mem_filter.mp hp
      exact hpods p hmem (by simpa using hselects)

/-- The targets of a capture with a pod selector are those of the pods above. -/
theorem settles_calculateCaptureTargetsOnNode {target : CaptureTarget} {podSelector : LabelSelector}
    (hpods : target.podSelector = some podSelector) (hvalid : validateTargetSelector target = .ok ())
    (namespaceName : String) :
    ∃ targets : List Pod → CaptureTargetsOnNode, (∀ pods ≠ [], ∀ node, ipsAt (targets pods) node = ipsNamed pods node) ∧
      Settles (calculateCaptureTargetsOnNode t api order target namespaceName) (do
        let pods ← targetPods t api target.namespaceSelector podSelector
        .ok (targets pods)) := by
  choose! targets hips hupdate using
    fun (pods : List Pod) (h : pods ≠ []) => settles_updateCaptureTargetsOSOnNode (t := t) api order h
  refine ⟨targets,hips,?_⟩
  unfold calculateCaptureTargetsOnNode targetPods
  rw [hvalid]
  have hget := settles_getCaptureTargetsOnNode (t := t) api hpods hvalid namespaceName
  cases hp : podsOf t api target.namespaceSelector podSelector with
  | error e =>
    rw [hp] at hget
    exact hget.bind_error _
  | ok pods =>
    rw [hp] at hget
    simp only [bind, Except.bind] at hget ⊢
    by_cases hne : pods = []
    · rw [if_pos hne] at hget ⊢
      exact hget.bind_error _
    · rw [if_neg hne] at hget ⊢
      refine hget.bind_ok ?_
      have hos := hupdate pods hne
      split_ifs at hos ⊢ with hall
      · refine hos.bind_ok ?_
        exact (settles_validateNoRunningWindowsCapture api (targets pods)).bind_ok .rfl
      · exact hos.bind_error _

end

/-! ## The pods that a capture is about -/

/-- The pods that match, in the namespaces that match or in the namespace of the capture. -/
def selectedPods (api : Api) (namespaceSelector : Option LabelSelector) (podSelector : LabelSelector)
    (captureNamespace : String) : List Pod :=
  api.cluster.pods.filter fun p => api.selects podSelector p.labels &&
    match namespaceSelector with
    | none => p.namespaceName = captureNamespace
    | some s => api.cluster.namespaces.any fun ns => ns.name = p.namespaceName && api.selects s ns.labels

/-- The targets that were computed are those of the given pods. If none of them is on a node, there are
no targets. -/
def TargetsExactly (cluster : Cluster) (selected : List Pod) : Except TargetsError CaptureTargetsOnNode → Prop
  | .ok targets => ∀ node, ipsAt targets node = ipsOnNode cluster selected node
  | .error .noTargetsSelected => ∀ node, ipsOnNode cluster selected node = none
  | .error _ => False

/-- What the code can handle: selectors that it can parse, pods that are scheduled to nodes of the
cluster whose names are label values, and a capture for which it makes no difference that the code
looks at the namespace `default`. -/
structure Handled (t : SelectorText) (api : Api) (namespaceSelector : Option LabelSelector)
    (podSelector : LabelSelector) (captureNamespace : String) : Prop where
  parsesNamespaces : ∀ s ∈ namespaceSelector, t.parses s = true
  parsesPods : t.parses podSelector = true ∨
    ∃ s ∈ namespaceSelector, ∀ ns ∈ api.cluster.namespaces, api.selects s ns.labels = false
  scheduled : ∀ p ∈ selectedPods api namespaceSelector podSelector "default",
    p.nodeName ∈ api.cluster.nodes.map Node.name
  nodeNames : ∀ p ∈ selectedPods api namespaceSelector podSelector "default", t.labelValue p.nodeName = true
  sameTargets : ∀ node,
    ipsOnNode api.cluster (selectedPods api namespaceSelector podSelector "default") node =
      ipsOnNode api.cluster (selectedPods api namespaceSelector podSelector captureNamespace) node

section
variable {t : SelectorText} {api : Api} {namespaceSelector : Option LabelSelector} {podSelector : LabelSelector}
variable {captureNamespace : String}

theorem namespacesOf_eq_nil_iff {names : List String} (h : namespacesOf t api namespaceSelector = .ok names) :
    names = [] ↔ ∃ s ∈ namespaceSelector, ∀ ns ∈ api.cluster.namespaces, api.selects s ns.labels = false := by
  cases namespaceSelector with
  | none =>
    cases h
    simp
  | some s =>
    simp only [namespacesOf] at h
    split_ifs at h
    cases h
    simp

theorem of_namespacesOf_eq_error {e : TargetsError} (h : namespacesOf t api namespaceSelector = .error e) :
    ∃ s ∈ namespaceSelector, t.parses s = false ∧ e = .selector s := by
  cases namespaceSelector with
  | none => cases h
  | some s =>
    simp only [namespacesOf] at h
    split_ifs at h with hp
    cases h
    exact ⟨s,rfl,by simpa using hp,rfl⟩

theorem parses_of_namespacesOf {names : List String} (h : namespacesOf t api namespaceSelector = .ok names) :
    ∀ s ∈ namespaceSelector, t.parses s = true := by
  rintro s hs
  cases hs
  simp only [namespacesOf] at h
  split_ifs at h with hp
  exact hp

/-- Where the selectors are parsed, the targets are exact if the nodes can be listed and the pods of
the code have the addresses of the selected ones. -/
theorem handled_iff {names : List String} (hnames : namespacesOf t api namespaceSelector = .ok names)
    (hparses : t.parses podSelector = true ∨ names = []) {pods : List Pod}
    (hperm : pods.Perm (selectedPods api namespaceSelector podSelector "default")) :
    Handled t api namespaceSelector podSelector captureNamespace ↔
      (∀ p ∈ pods, t.labelValue p.nodeName = true) ∧
        ∀ node, ipsNamed pods node =
          ipsOnNode api.cluster (selectedPods api namespaceSelector podSelector captureNamespace) node := by
  simp only [ipsNamed_eq_of_perm hperm, ipsNamed_eq_ipsOnNode_iff, hperm.mem_iff]
  constructor
  · intro h
    exact ⟨h.nodeNames,h.scheduled,h.sameTargets⟩
  · rintro ⟨hlabels,hscheduled,hsame⟩
    exact ⟨parses_of_namespacesOf hnames,hparses.imp_right (namespacesOf_eq_nil_iff hnames).mp,hscheduled,hlabels,hsame⟩

theorem podsOf_perm (podSelector : LabelSelector) {names : List String} (h : namespacesOf t api namespaceSelector = .ok names) :
    (names.flatMap (matching api podSelector)).Perm
      (selectedPods api namespaceSelector podSelector "default") := by
  cases namespaceSelector with
  | none =>
    cases h
    refine List.Perm.of_eq ?_
    simp [matching, selectedPods, Bool.and_comm]
  | some s =>
    simp only [namespacesOf] at h
    split_ifs at h
    cases h
    have hnodup := api.cluster.nodup.sublist
      ((List.filter_sublist (p := fun ns => api.selects s ns.labels)).map Namespace.name)
    refine (FiniteMap.flatMap_filter_perm Pod.namespaceName (fun p => api.selects podSelector p.labels) api.cluster.pods
      hnodup).trans ?_
    refine List.Perm.of_eq (List.filter_congr fun p _ => ?_)
    congr 1
    rw [Bool.eq_iff_iff]
    simp [and_comm, and_left_comm]

/-- Which captures with a pod selector run on exactly the pods that they select. -/
theorem calculateCaptureTargetsOnNode_exact_iff (t : SelectorText) (api : Api) (order : FiniteMap.Order String)
    (target : CaptureTarget) (podSelector : LabelSelector) (captureNamespace : String)
    (hpods : target.podSelector = some podSelector) (hvalid : validateTargetSelector target = .ok ())
    (hanswer : ¬Refused (calculateCaptureTargetsOnNode t api order target captureNamespace)) :
    TargetsExactly api.cluster (selectedPods api target.namespaceSelector podSelector captureNamespace)
        (calculateCaptureTargetsOnNode t api order target captureNamespace) ↔
      Handled t api target.namespaceSelector podSelector captureNamespace := by
  obtain ⟨targets,hips,hsettles⟩ :=
    settles_calculateCaptureTargetsOnNode (t := t) api order hpods hvalid captureNamespace
  rw [hsettles.resolve_left hanswer]
  unfold targetPods podsOf
  cases hnames : namespacesOf t api target.namespaceSelector with
  | error e =>
    obtain ⟨s,hs,hparses,rfl⟩ := of_namespacesOf_eq_error hnames
    exact ⟨fun h => h.elim,fun h => absurd (h.parsesNamespaces s hs) (by simp [hparses])⟩
  | ok names =>
    have hperm := podsOf_perm podSelector hnames
    simp only [bind, Except.bind]
    by_cases hparses : t.parses podSelector = true ∨ names = []
    · rw [if_pos hparses, handled_iff hnames hparses hperm]
      dsimp only
      by_cases hempty : names.flatMap (matching api podSelector) = []
      · have hnone : ∀ node, ipsNamed [] node = none := fun node => if_neg (by simp)
        simp only [hempty, if_true, TargetsExactly, hnone]
        exact ⟨fun h => ⟨by simp,fun node => (h node).symm⟩,fun h node => (h.2 node).symm⟩
      · rw [if_neg hempty]
        by_cases hall : ∀ p ∈ names.flatMap (matching api podSelector), t.labelValue p.nodeName = true
        · rw [if_pos (List.all_eq_true.mpr hall)]
          simp only [TargetsExactly, hips _ hempty]
          exact (and_iff_right hall).symm
        · rw [if_neg fun h => hall (List.all_eq_true.mp h)]
          exact ⟨fun h => h.elim,fun h => hall h.1⟩
    · rw [if_neg hparses]
      exact ⟨fun h => h.elim,fun h => hparses (h.parsesPods.imp_right (namespacesOf_eq_nil_iff hnames).mpr)⟩

/-! ## A capture outside the namespace `default` -/

def shortValues : SelectorText where
  parses s := (!s.matchLabels.isEmpty || !s.matchExpressions.isEmpty) &&
    s.matchExpressions.all fun r => r.values.all (·.length ≤ 63)
  labelValue v := v.length ≤ 63
  parses_empty := rfl
  parses_hostname names _ := by simp [hostnameSelector]
  parses_capturePod := rfl

def webPod (namespaceName nodeName ip : String) : Pod where
  name := "web-0"
  namespaceName := namespaceName
  labels := [("app","web")]
  nodeName := nodeName
  podIPs := [ip]
  phase := .running

def twoPods : Api where
  cluster := {
    namespaces := [⟨"apps",[]⟩,⟨"default",[]⟩]
    pods := [webPod "apps" "node-1" "10.0.0.1",webPod "default" "node-2" "10.0.0.2"]
    nodes := [⟨"node-1",[]⟩,⟨"node-2",[]⟩]
    nodup := by decide
    named := by decide }
  selects s labels := s.matchLabels.all fun label => labels.lookup label.1 = some label.2
  failure _ := none

def webSelector : LabelSelector := ⟨[("app","web")],[]⟩

def webTarget : CaptureTarget := ⟨none,none,some webSelector,[]⟩

theorem twoPods_not_refused (order : FiniteMap.Order String) (namespaceName : String) :
    ¬Refused (calculateCaptureTargetsOnNode shortValues twoPods order webTarget namespaceName) :=
  not_refused twoPods order (fun _ => rfl) (by decide) webTarget namespaceName

theorem otherNamespace_captured :
    ¬TargetsExactly twoPods.cluster (selectedPods twoPods none webSelector "apps")
      (calculateCaptureTargetsOnNode shortValues twoPods (.arbitrary String) webTarget "apps") := by
  obtain ⟨targets,hips,hsettles⟩ :=
    settles_calculateCaptureTargetsOnNode (t := shortValues) twoPods (.arbitrary String)
      (rfl : webTarget.podSelector = some webSelector) rfl "apps"
  have htargets : targetPods shortValues twoPods none webSelector =
      .ok [webPod "default" "node-2" "10.0.0.2"] := rfl
  rw [hsettles.resolve_left (twoPods_not_refused _ _)]
  change ¬TargetsExactly _ _ (targetPods shortValues twoPods none webSelector >>= _)
  rw [htargets]
  intro h
  have hnode := h "node-1"
  rw [hips _ (by simp)] at hnode
  have hselected : selectedPods twoPods none webSelector "apps" = [webPod "apps" "node-1" "10.0.0.1"] := rfl
  rw [hselected] at hnode
  simp [ipsOnNode, ipsNamed, webPod, twoPods] at hnode

theorem defaultNamespace_exact :
    TargetsExactly twoPods.cluster (selectedPods twoPods none webSelector "default")
      (calculateCaptureTargetsOnNode shortValues twoPods (.arbitrary String) webTarget "default") :=
  (calculateCaptureTargetsOnNode_exact_iff shortValues twoPods (.arbitrary String) webTarget webSelector "default" rfl
    rfl (twoPods_not_refused _ _)).mpr ⟨by rintro s ⟨⟩,.inl rfl,by decide,by decide,fun _ => rfl⟩

end
end Retina.Capture
