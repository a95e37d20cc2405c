import Retina.Nodes.Reconcile

/-! # The ipcache and the nodes

The ipcache always has the addresses that are recorded for nodes. These are the addresses of the
nodes of the cluster when all events were reconciled, if nodes only gain addresses.
-/
namespace Retina.Nodes.World
open Execution FiniteMap

variable {IP : Type} {env : Setting IP}

theorem identity_congr {a b : NodeRecord IP} (h : ∀ ip, ip ∈ a.ips env ↔ ip ∈ b.ips env) :
    a.identity env = b.identity env := by
  have hcontains : (a.ips env).contains env.localNodeIP = (b.ips env).contains env.localNodeIP := by
    rw [Bool.eq_iff_iff, List.contains_iff_mem, List.contains_iff_mem]
    exact h _
  rw [NodeRecord.identity, NodeRecord.identity, hcontains]

variable (env) in
structure Tracks (w : World IP) : Prop where
  /-- The ipcache is that of the records. -/
  cached : ∀ ip id, w.ipcache.lookup ip = some id ↔
    ∃ name nd, w.nodes.lookup name = some nd ∧ ip ∈ nd.ips env ∧ id = nd.identity env
  named : ∀ name node, w.cluster.lookup name = some node → node.name = name ∧ node.deletionTimestamp = false
  /-- No address of a node is recorded for another node, or is that of another node. -/
  foreign : ∀ m n node nd, m ≠ n → w.cluster.lookup n = some node → w.nodes.lookup m = some nd →
    ∀ ip ∈ nd.ips env, ip ∉ (nodeRecord env node).ips env
  exclusive : ∀ m n a b, m ≠ n → w.cluster.lookup m = some a → w.cluster.lookup n = some b →
    ∀ ip ∈ (nodeRecord env a).ips env, ip ∉ (nodeRecord env b).ips env
  separate : ∀ m n a b, m ≠ n → w.nodes.lookup m = some a → w.nodes.lookup n = some b →
    ∀ ip ∈ a.ips env, ip ∉ b.ips env
  /-- A node has the addresses that are recorded for it. -/
  kept : ∀ n node nd, w.cluster.lookup n = some node → w.nodes.lookup n = some nd →
    ∀ ip ∈ nd.ips env, ip ∈ (nodeRecord env node).ips env
  /-- Nodes that are not in the queue are recorded as they are. -/
  gone : ∀ n, n ∉ w.queue → w.cluster.lookup n = none → w.nodes.lookup n = none
  current : ∀ n node, n ∉ w.queue → w.cluster.lookup n = some node →
    ∃ nd, w.nodes.lookup n = some nd ∧ ∀ ip, ip ∈ nd.ips env ↔ ip ∈ (nodeRecord env node).ips env

theorem tracks_start : (start : World IP).Tracks env := by
  constructor <;> simp [start]

theorem Tracks.exact {w : World IP} (h : w.Tracks env) (hqueue : w.queue = ∅) : w.Exact env := by
  have hnotMem : ∀ n, n ∉ w.queue := by
    intro n
    rw [hqueue]
    exact Finset.notMem_empty n
  intro ip id
  rw [h.cached]
  constructor
  · rintro ⟨name,nd,hnd,hip,rfl⟩
    cases hnode : w.cluster.lookup name with
    | none =>
      rw [h.gone name (hnotMem name) hnode] at hnd
      cases hnd
    | some node =>
      obtain ⟨nd',hnd',hsame⟩ := h.current name node (hnotMem name) hnode
      cases hnd.symm.trans hnd'
      exact ⟨name,node,hnode,(hsame ip).mp hip,identity_congr hsame⟩
  · rintro ⟨name,node,hnode,hip,rfl⟩
    obtain ⟨nd,hnd,hsame⟩ := h.current name node (hnotMem name) hnode
    exact ⟨name,nd,hnd,(hsame ip).mpr hip,(identity_congr hsame).symm⟩

theorem notMem_queue_of_put {w : World IP} {node : Node} {n : String} (hn : n ∉ (w.step env (.put node)).queue) :
    n ∉ w.queue := by
  dsimp only [step] at hn
  split at hn
  · exact fun hmem => hn (Finset.mem_insert_of_mem hmem)
  · exact hn

theorem Tracks.put {w : World IP} (h : w.Tracks env) {node : Node} (hdistinct : w.Distinct env (.put node))
    (hunmarked : w.Unmarked (.put node)) (hadditive : w.Additive env (.put node)) :
    (w.step env (.put node)).Tracks env where
  cached := h.cached
  named := by
    intro name other hother
    rcases lookup_of_insert hother with ⟨rfl,rfl⟩ | ⟨-,hold⟩
    · exact ⟨rfl,hunmarked⟩
    · exact h.named name other hold
  foreign := by
    intro m n other nd hne hother hnd ip hip
    rcases lookup_of_insert hother with ⟨rfl,rfl⟩ | ⟨-,hold⟩
    · exact hadditive.2.1 m nd hne hnd ip hip
    · exact h.foreign m n other nd hne hold hnd ip hip
  exclusive := pairwise_insert (fun _ _ hab ip hb ha => hab ip ha hb) h.exclusive hdistinct
  separate := h.separate
  kept := by
    intro n other nd hother hnd ip hip
    rcases lookup_of_insert hother with ⟨rfl,rfl⟩ | ⟨-,hold⟩
    · exact hadditive.1 nd hnd ip hip
    · exact h.kept n other nd hold hnd ip hip
  gone := by
    intro n hn hnone
    have hne : n ≠ node.name := by
      rintro rfl
      rw [step, Finmap.lookup_insert] at hnone
      cases hnone
    rw [step, Finmap.lookup_insert_of_ne _ hne] at hnone
    exact h.gone n (notMem_queue_of_put hn) hnone
  current := by
    intro n other hn hother
    rcases lookup_of_insert hother with ⟨rfl,rfl⟩ | ⟨-,hold⟩
    · dsimp only [step] at hn
      cases hpasses : w.passes node with
      | true =>
        rw [hpasses, if_pos rfl] at hn
        exact absurd (Finset.mem_insert_self _ _) hn
      | false =>
        rw [hpasses, if_neg Bool.false_ne_true] at hn
        rw [passes] at hpasses
        split at hpasses
        · cases hpasses
        · rename_i old hold
          obtain ⟨nd,hnd,hsame⟩ := h.current _ old hn hold
          have hips := hadditive.2.2 old hold hpasses hn
          exact ⟨nd,hnd,fun ip => (hsame ip).trans (hips ip).symm⟩
    · exact h.current n other (notMem_queue_of_put hn) hold

theorem Tracks.delete {w : World IP} (h : w.Tracks env) (name : String) : (w.step env (.delete name)).Tracks env where
  cached := h.cached
  named n node hn := h.named n node (lookup_of_erase hn).2
  foreign m n node nd hne hn := h.foreign m n node nd hne (lookup_of_erase hn).2
  exclusive m n a b hne hm hn := h.exclusive m n a b hne (lookup_of_erase hm).2 (lookup_of_erase hn).2
  separate := h.separate
  kept n node nd hn := h.kept n node nd (lookup_of_erase hn).2
  gone := by
    intro n hn hnone
    obtain ⟨hne,hn⟩ : n ≠ name ∧ n ∉ w.queue := by simpa [step] using hn
    rw [step, Finmap.lookup_erase_ne hne] at hnone
    exact h.gone n hn hnone
  current := by
    intro n node hn hnode
    obtain ⟨hne,hn⟩ : n ≠ name ∧ n ∉ w.queue := by simpa [step] using hn
    exact h.current n node hn (lookup_of_erase hnode).2

theorem lookup_ipcache_addNode (w : World IP) (node : Node) (ip : String) :
    (w.addNode env node).ipcache.lookup ip =
      if ip ∈ (nodeRecord env node).ips env then some ((nodeRecord env node).identity env) else w.ipcache.lookup ip :=
  lookup_foldl_insert w.ipcache _ _ ip

/-- Addresses that a node gains were not those of another one, and it loses none. -/
theorem Tracks.cached_insert {w : World IP} (h : w.Tracks env) {node : Node}
    (hnode : w.cluster.lookup node.name = some node) (ip : String) (id : Identity) :
    (w.addNode env node).ipcache.lookup ip = some id ↔
      ∃ name nd, (w.nodes.insert node.name (nodeRecord env node)).lookup name = some nd ∧ ip ∈ nd.ips env ∧
        id = nd.identity env := by
  rw [lookup_ipcache_addNode]
  split
  · rename_i hip
    constructor
    · intro heq
      exact ⟨node.name,_,Finmap.lookup_insert _,hip,(Option.some.inj heq).symm⟩
    · rintro ⟨name,nd,hnd,hip',rfl⟩
      rcases lookup_of_insert hnd with ⟨-,rfl⟩ | ⟨hne,hold⟩
      · rfl
      · exact absurd hip (h.foreign name node.name node nd hne hnode hold ip hip')
  · rename_i hip
    rw [h.cached]
    constructor
    · rintro ⟨name,nd,hnd,hip',rfl⟩
      have hne : name ≠ node.name := by
        rintro rfl
        exact hip (h.kept _ node nd hnode hnd ip hip')
      exact ⟨name,nd,(Finmap.lookup_insert_of_ne _ hne).trans hnd,hip',rfl⟩
    · rintro ⟨name,nd,hnd,hip',rfl⟩
      rcases lookup_of_insert hnd with ⟨-,rfl⟩ | ⟨-,hold⟩
      · exact absurd hip' hip
      · exact ⟨name,nd,hold,hip',rfl⟩

theorem Tracks.addNode {w : World IP} (h : w.Tracks env) {node : Node} (hnode : w.cluster.lookup node.name = some node) :
    ({ w with queue := w.queue.erase node.name }.addNode env node).Tracks env where
  cached := h.cached_insert hnode
  named := h.named
  foreign := by
    intro m n other nd hne hother hnd ip hip
    rcases lookup_of_insert hnd with ⟨rfl,rfl⟩ | ⟨-,hold⟩
    · exact h.exclusive _ n node other hne hnode hother ip hip
    · exact h.foreign m n other nd hne hother hold ip hip
  exclusive := h.exclusive
  separate := pairwise_insert (fun _ _ hab ip hb ha => hab ip ha hb) h.separate fun m a hm =>
    h.foreign m _ node a hm hnode
  kept := by
    intro n other nd hother hnd ip hip
    rcases lookup_of_insert hnd with ⟨rfl,rfl⟩ | ⟨-,hold⟩
    · cases hnode.symm.trans hother
      exact hip
    · exact h.kept n other nd hother hold ip hip
  gone := by
    intro n hn hnone
    have hne : n ≠ node.name := by
      rintro rfl
      cases hnode.symm.trans hnone
    refine (Finmap.lookup_insert_of_ne _ hne).trans (h.gone n ?_ hnone)
    simpa [World.addNode, hne] using hn
  current := by
    intro n other hn hother
    by_cases hne : n = node.name
    · subst hne
      cases hnode.symm.trans hother
      exact ⟨_,Finmap.lookup_insert _,fun ip => Iff.rfl⟩
    · obtain ⟨nd,hnd,hsame⟩ := h.current n other (by simpa [World.addNode, hne] using hn) hother
      exact ⟨nd,(Finmap.lookup_insert_of_ne _ hne).trans hnd,hsame⟩

/-- A node that is gone and not recorded needs no more work. -/
theorem Tracks.dequeue {w : World IP} (h : w.Tracks env) {name : String} (hname : w.cluster.lookup name = none)
    (hnd : w.nodes.lookup name = none) : { w with queue := w.queue.erase name }.Tracks env where
  cached := h.cached
  named := h.named
  foreign := h.foreign
  exclusive := h.exclusive
  separate := h.separate
  kept := h.kept
  gone := by
    intro n hn hnone
    by_cases hne : n = name
    · rw [hne]
      exact hnd
    · exact h.gone n (by simpa [hne] using hn) hnone
  current := by
    intro n node hn hnode
    have hne : n ≠ name := by
      rintro rfl
      cases hname.symm.trans hnode
    exact h.current n node (by simpa [hne] using hn) hnode

/-- The recorded addresses of a node are not those of another one, so the ipcache loses no others with them. -/
theorem Tracks.cached_erase {w : World IP} (h : w.Tracks env) {name : String} {nd : NodeRecord IP}
    (hnd : w.nodes.lookup name = some nd) (ip : String) (id : Identity) :
    ((nd.ips env).foldl (fun cache ip => cache.erase ip) w.ipcache).lookup ip = some id ↔
      ∃ m nd', (w.nodes.erase name).lookup m = some nd' ∧ ip ∈ nd'.ips env ∧ id = nd'.identity env := by
  rw [lookup_foldl_erase]
  split
  · rename_i hip
    constructor
    · intro heq
      cases heq
    · rintro ⟨m,nd',hm,hip',rfl⟩
      obtain ⟨hne,hold⟩ := lookup_of_erase hm
      exact absurd hip (h.separate m name nd' nd hne hold hnd ip hip')
  · rename_i hip
    rw [h.cached]
    constructor
    · rintro ⟨m,nd',hm,hip',rfl⟩
      have hne : m ≠ name := by
        rintro rfl
        cases hnd.symm.trans hm
        exact hip hip'
      exact ⟨m,nd',(Finmap.lookup_erase_ne hne).trans hm,hip',rfl⟩
    · rintro ⟨m,nd',hm,hip',rfl⟩
      exact ⟨m,nd',(lookup_of_erase hm).2,hip',rfl⟩

/-- A node that is gone leaves the ipcache with all its recorded addresses. -/
theorem Tracks.deleteNode {w : World IP} (h : w.Tracks env) {name : String} (hname : w.cluster.lookup name = none) :
    ({ w with queue := w.queue.erase name }.deleteNode env name).Tracks env := by
  rw [World.deleteNode]
  cases hnd : w.nodes.lookup name with
  | none => exact h.dequeue hname hnd
  | some nd =>
    refine ⟨h.cached_erase hnd,h.named,?_,h.exclusive,?_,?_,?_,?_⟩
    · intro m n node nd' hne hn hm
      exact h.foreign m n node nd' hne hn (lookup_of_erase hm).2
    · intro m n a b hne hm hn
      exact h.separate m n a b hne (lookup_of_erase hm).2 (lookup_of_erase hn).2
    · intro n node nd' hn hnd'
      exact h.kept n node nd' hn (lookup_of_erase hnd').2
    · intro n hn hnone
      by_cases hne : n = name
      · rw [hne]
        exact Finmap.lookup_erase _ _
      · exact (Finmap.lookup_erase_ne hne).trans (h.gone n (by simpa [hne] using hn) hnone)
    · intro n node hn hnode
      have hne : n ≠ name := by
        rintro rfl
        cases hname.symm.trans hnode
      obtain ⟨nd',hnd',hsame⟩ := h.current n node (by simpa [hne] using hn) hnode
      exact ⟨nd',(Finmap.lookup_erase_ne hne).trans hnd',hsame⟩

theorem Tracks.step {w : World IP} (h : w.Tracks env) {op : Op} (hdistinct : w.Distinct env op)
    (hunmarked : w.Unmarked op) (hadditive : w.Additive env op) : (w.step env op).Tracks env := by
  cases op with
  | put node => exact h.put hdistinct hunmarked hadditive
  | delete name => exact h.delete name
  | reconcile name =>
    rw [World.step]
    split
    · rw [World.reconcile]
      dsimp only
      cases hnode : w.cluster.lookup name with
      | none => exact h.deleteNode hnode
      | some node =>
        obtain ⟨rfl,halive⟩ := h.named name node hnode
        dsimp only
        rw [halive, if_neg Bool.false_ne_true]
        exact h.addNode hnode
    · exact h

/-- The ipcache has exactly the addresses of the nodes when all events were reconciled, if nodes only gain addresses,
visibly for the predicate, and gain none that is still recorded for another node. -/
theorem reconciled_exact (env : Setting IP) (ops : List Op) (hdistinct : Along (step env) (Distinct env) start ops)
    (hunmarked : Along (step env) Unmarked start ops) (hadditive : Along (step env) (Additive env) start ops)
    (hqueue : (run (step env) start ops).queue = ∅) : (run (step env) start ops).Exact env :=
  (invariant (I := Tracks env) (fun _ _ h hop => h.step hop.1 hop.2.1 hop.2.2) tracks_start
    (hdistinct.and (hunmarked.and hadditive))).exact hqueue

/-! ## Two histories -/

def plain : Setting String where
  parseIP s := if s = "" then none else some s
  text := id
  localNodeIP := "10.0.0.1"

def internalNode (ips : List String) : Node where
  name := "node-a"
  labels := ∅
  annotations := ∅
  deletionTimestamp := false
  addresses := ips.map fun ip => ⟨.internalIP,ip⟩

def gainedAddress : List Op :=
  [.put (internalNode ["10.0.0.1"]),.reconcile "node-a",.put (internalNode ["10.0.0.1","10.0.0.2"]),.reconcile "node-a"]

theorem eq_of_lookup_singleton {β : Type} {k name : String} {v v' : β}
    (h : ((∅ : Finmap fun _ : String => β).insert k v).lookup name = some v') : name = k ∧ v = v' := by
  rcases lookup_of_insert h with hsame | ⟨-,hold⟩
  · exact hsame
  · cases hold

theorem gainedAddress_exact :
    (run (step plain) start gainedAddress).ipcache.lookup "10.0.0.2" = some .host ∧
      (run (step plain) start gainedAddress).Exact plain := by
  refine ⟨by decide,reconciled_exact plain gainedAddress ⟨?_,trivial,?_,trivial,trivial⟩
    ⟨rfl,trivial,rfl,trivial,trivial⟩ ⟨⟨?_,?_,?_⟩,trivial,⟨?_,?_,?_⟩,trivial,trivial⟩ (by decide)⟩
  · rintro name other - hother
    cases hother
  · rintro name other hne hother
    exact absurd (eq_of_lookup_singleton hother).1 hne
  · rintro nd hnd
    cases hnd
  · rintro name nd - hnd
    cases hnd
  · rintro old hold
    cases hold
  · rintro nd hnd
    obtain ⟨-,rfl⟩ := eq_of_lookup_singleton hnd
    decide
  · rintro name nd hne hnd
    exact absurd (eq_of_lookup_singleton hnd).1 hne
  · rintro old hold hfiltered
    obtain ⟨-,rfl⟩ := eq_of_lookup_singleton hold
    exact absurd hfiltered (by decide)

def changedAddress : List Op :=
  [.put (internalNode ["10.0.0.1"]),.reconcile "node-a",.put (internalNode ["10.0.0.2"]),.reconcile "node-a"]

/-- All events were reconciled, and the old address is still that of a node. -/
theorem changedAddress_not_exact :
    (run (step plain) start changedAddress).queue = ∅ ∧
      (run (step plain) start changedAddress).cluster.lookup "node-a" = some (internalNode ["10.0.0.2"]) ∧
      (run (step plain) start changedAddress).ipcache.lookup "10.0.0.1" = some .host ∧
      ¬(run (step plain) start changedAddress).Exact plain := by
  have hstale : (run (step plain) start changedAddress).ipcache.lookup "10.0.0.1" = some .host := by decide
  refine ⟨by decide,by decide,hstale,?_⟩
  intro hexact
  obtain ⟨name,node,hnode,hip,-⟩ := (hexact _ _).mp hstale
  have hcluster : (run (step plain) start changedAddress).cluster =
      (∅ : Finmap fun _ : String => Node).insert "node-a" (internalNode ["10.0.0.2"]) := by decide
  rw [hcluster] at hnode
  obtain ⟨-,rfl⟩ := eq_of_lookup_singleton hnode
  exact absurd hip (by decide)

end Retina.Nodes.World
