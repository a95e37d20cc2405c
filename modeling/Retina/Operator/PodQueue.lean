import Retina.Library.Execution
import Retina.Library.KeyedQueue
import Retina.Operator.RetinaEndpoint

/-! # The channel of pod events

`ReconcilePod` and `requeuePodToRetinaEndpoint` of `pkg/controllers/operator/retinaendpoint`, fed by
`PodReconciler`. The channel has room for every event. An event that fails is put back at its end,
behind events that were sent later, and a counter of its key goes up. The counter is removed only
when an event is given up.
-/
namespace Retina.Operator
open Execution KeyedQueue

def maxRetries : ℕ := 5

structure Event where
  serial : ℕ
  obj : PodCacheObject
deriving DecidableEq

def Event.key (e : Event) : NamespacedName := e.obj.key

/-- The channel, the counters and the API server. The last three fields are history: the events that were sent,
the serials of the attempts that failed, and those of the events that were given up. -/
structure World where
  podchannel : List Event
  retries : Finmap (fun _ : NamespacedName => ℕ)
  store : EndpointStore
  sent : List PodCacheObject
  failures : List ℕ
  dropped : List ℕ

def World.start (store : EndpointStore) : World := ⟨[],∅,store,[],[],[]⟩

inductive Op
  | send (obj : PodCacheObject)
  | receive (api : Attempt)
deriving DecidableEq

namespace World

def requeuePodToRetinaEndpoint (w : World) (api : Attempt) (pod : Event) : World :=
  let value := (w.retries.lookup pod.key).getD 0
  if maxRetries ≤ value then { w with retries := w.retries.erase pod.key, dropped := pod.serial :: w.dropped }
  else
    { w with
      retries := w.retries.insert pod.key (value + 1)
      podchannel := if api.expired then w.podchannel else w.podchannel ++ [pod] }

def handle (w : World) (api : Attempt) (pod : Event) : World :=
  if pod.obj.pod.any Pod.hostNetwork then w
  else
    let result := reconcileRetinaEndpointFromPod w.store pod.obj api
    let w := { w with store := result.1 }
    if result.2 = none then w
    else requeuePodToRetinaEndpoint { w with failures := pod.serial :: w.failures } api pod

def step (w : World) : Op → World
  | .send obj => { w with podchannel := w.podchannel ++ [⟨w.sent.length,obj⟩], sent := w.sent ++ [obj] }
  | .receive api =>
    match w.podchannel with
    | [] => w
    | pod :: rest => handle { w with podchannel := rest } api pod

def Fails (w : World) (api : Attempt) (pod : Event) : Prop :=
  pod.obj.pod.any Pod.hostNetwork = false ∧ (reconcileRetinaEndpointFromPod w.store pod.obj api).2 ≠ none

instance (w : World) (api : Attempt) (pod : Event) : Decidable (w.Fails api pod) :=
  inferInstanceAs (Decidable (_ ∧ _))

/-- Everything that can become of an event. -/
theorem handle_cases (w : World) (api : Attempt) (pod : Event) :
    pod.obj.pod.any Pod.hostNetwork = true ∧ handle w api pod = w ∨
      pod.obj.pod.any Pod.hostNetwork = false ∧ (reconcileRetinaEndpointFromPod w.store pod.obj api).2 = none ∧
        handle w api pod = { w with store := (reconcileRetinaEndpointFromPod w.store pod.obj api).1 } ∨
      w.Fails api pod ∧ maxRetries ≤ (w.retries.lookup pod.key).getD 0 ∧
        handle w api pod =
          { w with
            retries := w.retries.erase pod.key
            failures := pod.serial :: w.failures
            dropped := pod.serial :: w.dropped } ∨
      w.Fails api pod ∧ (w.retries.lookup pod.key).getD 0 < maxRetries ∧
        handle w api pod =
          { w with
            retries := w.retries.insert pod.key ((w.retries.lookup pod.key).getD 0 + 1)
            failures := pod.serial :: w.failures
            podchannel := if api.expired then w.podchannel else w.podchannel ++ [pod] } := by
  by_cases hhost : pod.obj.pod.any Pod.hostNetwork = true
  · exact .inl ⟨hhost,if_pos hhost⟩
  right
  rw [handle, if_neg hhost]
  rw [Bool.not_eq_true] at hhost
  by_cases herr : (reconcileRetinaEndpointFromPod w.store pod.obj api).2 = none
  · exact .inl ⟨hhost,herr,if_pos herr⟩
  right
  have hstore := store_of_error herr
  dsimp only
  rw [if_neg herr, hstore, requeuePodToRetinaEndpoint]
  by_cases hmax : maxRetries ≤ (w.retries.lookup pod.key).getD 0
  · exact .inl ⟨⟨hhost,herr⟩,hmax,if_pos hmax⟩
  · exact .inr ⟨⟨hhost,herr⟩,Nat.lt_of_not_le hmax,if_neg hmax⟩

/-! ## The last event of a pod -/

def Eligible (obj : PodCacheObject) : Prop := ∀ p, obj.pod = some p → p.Ready ∧ p.hostNetwork = false

theorem Eligible.hostNetwork {obj : PodCacheObject} (h : Eligible obj) : obj.pod.any Pod.hostNetwork = false := by
  cases hpod : obj.pod with
  | none => rfl
  | some p => exact (h p hpod).2

def SendsEligible : Op → Prop
  | .send obj => Eligible obj
  | .receive _ => True

/-- An event that fails is put back, and no other event of its key is in the channel. -/
def KeepsOrder (w : World) : Op → Prop
  | .send _ => True
  | .receive api =>
    ∀ pod ∈ w.podchannel.head?, w.Fails api pod →
      (∀ later ∈ w.podchannel.tail, later.key ≠ pod.key) ∧ (w.retries.lookup pod.key).getD 0 < maxRetries ∧
        api.expired = false

instance (w : World) : (op : Op) → Decidable (w.KeepsOrder op)
  | .send _ => inferInstanceAs (Decidable True)
  | .receive _ => by unfold KeepsOrder; infer_instance

/-- The last event of a key is the last one of the channel, or it has had its effect. -/
structure Current (w : World) : Prop where
  eligible : ∀ e ∈ w.podchannel, Eligible e.obj
  last : ∀ k obj, lastOf PodCacheObject.key k w.sent = some obj →
    (lastOf Event.key k w.podchannel).map Event.obj = some obj ∨
      lastOf Event.key k w.podchannel = none ∧ Reflects w.store obj

theorem current_start (store : EndpointStore) : (start store).Current where
  eligible := by simp [start]
  last := by simp [start]

theorem Current.send {w : World} (h : w.Current) {obj : PodCacheObject} (hobj : Eligible obj) :
    (w.step (.send obj)).Current where
  eligible := by
    intro e he
    rcases List.mem_append.mp he with he | he
    · exact h.eligible e he
    · rw [List.mem_singleton.mp he]
      exact hobj
  last := by
    intro k last hlast
    dsimp only [step] at hlast ⊢
    rw [lastOf_append_singleton] at hlast ⊢
    by_cases hk : obj.key = k
    · rw [if_pos hk] at hlast
      rw [if_pos (show Event.key ⟨w.sent.length,obj⟩ = k from hk)]
      exact .inl hlast
    · rw [if_neg hk] at hlast
      rw [if_neg (show Event.key ⟨w.sent.length,obj⟩ ≠ k from hk)]
      exact h.last k last hlast

/-- An event without an error has its effect, unless a later event of its key waits. -/
theorem Current.done {w : World} {pod : Event} {rest : List Event} {api : Attempt}
    (h : { w with podchannel := pod :: rest }.Current)
    (hok : (reconcileRetinaEndpointFromPod w.store pod.obj api).2 = none) :
    { w with podchannel := rest, store := (reconcileRetinaEndpointFromPod w.store pod.obj api).1 }.Current where
  eligible e he := h.eligible e (List.mem_cons_of_mem pod he)
  last := by
    intro k last hlast
    have hcurrent := h.last k last hlast
    dsimp only at hcurrent ⊢
    by_cases hk : pod.key = k
    · subst hk
      rw [lastOf_cons_self] at hcurrent
      cases hrest : lastOf Event.key pod.key rest with
      | some e =>
        rw [hrest] at hcurrent
        simpa using hcurrent
      | none =>
        rw [hrest] at hcurrent
        have heq : pod.obj = last := by simpa using hcurrent
        subst heq
        exact .inr ⟨rfl,reflects_of_ok (fun p hp => (h.eligible pod List.mem_cons_self p hp).1) hok⟩
    · rw [lastOf_cons_of_ne hk] at hcurrent
      refine hcurrent.imp_right fun ⟨hnone,hreflects⟩ => ⟨hnone,?_⟩
      have hkey : last.key = k := (mem_of_lastOf hlast).2
      rw [Reflects, lookup_of_ne (by rw [hkey]; exact fun h => hk h.symm)]
      exact hreflects

theorem Current.step {w : World} (h : w.Current) {op : Op} (hsend : SendsEligible op) (horder : w.KeepsOrder op) :
    (w.step op).Current := by
  cases op with
  | send obj => exact h.send hsend
  | receive api =>
    cases hchannel : w.podchannel with
    | nil =>
      rw [World.step, hchannel]
      exact h
    | cons pod rest =>
      have hhead : pod ∈ w.podchannel.head? := by rw [hchannel, List.head?_cons, Option.mem_some_iff]
      have hfront : { w with podchannel := pod :: rest }.Current := by
        rw [← hchannel]
        exact h
      rw [World.step, hchannel]
      dsimp only
      rcases handle_cases { w with podchannel := rest } api pod with
        ⟨hhost,heq⟩ | ⟨hhost,hok,heq⟩ | ⟨hfails,hmax,heq⟩ | ⟨hfails,hmax,heq⟩
      · rw [(hfront.eligible pod List.mem_cons_self).hostNetwork] at hhost
        cases hhost
      · rw [heq]
        exact hfront.done hok
      · have hretry := (horder pod hhead hfails).2.1
        exact absurd hmax (Nat.not_le.mpr hretry)
      · obtain ⟨hother,-,hexpired⟩ := horder pod hhead hfails
        rw [hchannel, List.tail_cons] at hother
        rw [heq, hexpired]
        refine ⟨?_,?_⟩
        · intro e he
          exact hfront.eligible e (by simpa [or_comm] using he)
        · intro k last hlast
          dsimp only
          rw [if_neg Bool.false_ne_true, lastOf_rotate hother]
          exact hfront.last k last hlast

def sampleKey : NamespacedName := ⟨"default","web"⟩

theorem sampleSends_eligible (ip : String) (hip : ip ≠ "") : Eligible ⟨sampleKey,some (samplePod ip)⟩ := by
  rintro p hp
  cases hp
  exact ⟨samplePod_ready hip,rfl⟩

def retriedUpdate : List Op :=
  [.send ⟨sampleKey,some (samplePod "10.0.0.1")⟩,.receive {},.send ⟨sampleKey,some (samplePod "10.0.0.2")⟩,
    .receive { writeFails := true },.receive {}]

def overtakenCreation : List Op :=
  [.send ⟨sampleKey,some (samplePod "10.0.0.1")⟩,.send ⟨sampleKey,none⟩,.receive { writeFails := true },
    .receive {},.receive {}]

def keyOf (sent : List PodCacheObject) (i : ℕ) : Option NamespacedName := (sent[i]?).map PodCacheObject.key

/-- Events are given up after their first attempt and all retries have failed. -/
def FullRetries (w : World) : Prop := ∀ i ∈ w.dropped, maxRetries + 1 ≤ w.failures.count i

/-- If an event fails, then all other events of its key that have failed were given up. -/
def OneFailing (w : World) : Op → Prop
  | .send _ => True
  | .receive api =>
    ∀ pod ∈ w.podchannel.head?, w.Fails api pod →
      ∀ i ∈ w.failures, keyOf w.sent i = some pod.key → i = pod.serial ∨ i ∈ w.dropped

instance (w : World) : (op : Op) → Decidable (w.OneFailing op)
  | .send _ => inferInstanceAs (Decidable True)
  | .receive _ => by unfold OneFailing; infer_instance

def charged (sent : List PodCacheObject) (dropped failures : List ℕ) (k : NamespacedName) : ℕ :=
  failures.countP fun i => decide (keyOf sent i = some k ∧ i ∉ dropped)

section Charged
variable {sent : List PodCacheObject} {dropped failures : List ℕ} {i : ℕ} {k : NamespacedName}

theorem charged_cons_of_ne (h : keyOf sent i ≠ some k) :
    charged sent dropped (i :: failures) k = charged sent dropped failures k :=
  List.countP_cons_of_neg (by simp [h])

theorem charged_cons_self (h : keyOf sent i = some k) (hi : i ∉ dropped) :
    charged sent dropped (i :: failures) k = charged sent dropped failures k + 1 :=
  List.countP_cons_of_pos (by simp [h, hi])

theorem charged_drop_of_ne (h : keyOf sent i ≠ some k) :
    charged sent (i :: dropped) failures k = charged sent dropped failures k := by
  apply List.countP_congr
  intro j _
  have hj : keyOf sent j = some k → j ≠ i := by
    rintro hjk rfl
    exact h hjk
  simp only [decide_eq_true_eq, List.mem_cons, not_or]
  exact ⟨fun ⟨hjk,_,hd⟩ => ⟨hjk,hd⟩,fun ⟨hjk,hd⟩ => ⟨hjk,hj hjk,hd⟩⟩

theorem charged_eq_zero (h : ∀ j ∈ failures, keyOf sent j = some k → j ∈ dropped) :
    charged sent dropped failures k = 0 := by
  rw [charged, List.countP_eq_zero]
  intro j hj
  simpa using h j hj

/-- Failures that are charged to a key and are all of one event. -/
theorem charged_le_count (h : ∀ j ∈ failures, keyOf sent j = some k → j = i ∨ j ∈ dropped) :
    charged sent dropped failures k ≤ failures.count i := by
  apply List.countP_mono_left
  intro j hj hcount
  obtain ⟨hkey,hd⟩ := of_decide_eq_true hcount
  exact beq_iff_eq.mpr ((h j hj hkey).resolve_right hd)

theorem charged_append (h : ∀ j ∈ failures, j < sent.length) (obj : PodCacheObject) :
    charged (sent ++ [obj]) dropped failures k = charged sent dropped failures k := by
  apply List.countP_congr
  intro j hj
  have hkey : keyOf (sent ++ [obj]) j = keyOf sent j := by
    rw [keyOf, List.getElem?_append_left (h j hj), keyOf]
  rw [hkey]

end Charged

structure Counted (w : World) : Prop where
  serial : ∀ e ∈ w.podchannel, w.sent[e.serial]? = some e.obj
  distinct : (w.podchannel.map Event.serial).Nodup
  waiting : ∀ e ∈ w.podchannel, e.serial ∉ w.dropped
  failed : ∀ i ∈ w.failures, i < w.sent.length
  gone : ∀ i ∈ w.dropped, i < w.sent.length
  counter : ∀ k, (w.retries.lookup k).getD 0 = charged w.sent w.dropped w.failures k
  full : w.FullRetries

theorem counted_start (store : EndpointStore) : (start store).Counted := by
  constructor <;> simp [start, charged, FullRetries]

theorem Counted.send {w : World} (h : w.Counted) (obj : PodCacheObject) : (w.step (.send obj)).Counted where
  serial := by
    intro e he
    rcases List.mem_append.mp he with he | he
    · have hsent := h.serial e he
      obtain ⟨hlt,-⟩ := List.getElem?_eq_some_iff.mp hsent
      rw [← hsent]
      exact List.getElem?_append_left hlt
    · rw [List.mem_singleton.mp he]
      exact List.getElem?_concat_length
  distinct := by
    have hfresh : w.sent.length ∉ w.podchannel.map Event.serial := by
      intro hmem
      obtain ⟨e,he,hserial⟩ := List.mem_map.mp hmem
      obtain ⟨hlt,-⟩ := List.getElem?_eq_some_iff.mp (h.serial e he)
      omega
    simpa [step, List.nodup_append] using ⟨h.distinct,fun e he heq => hfresh (List.mem_map.mpr ⟨e,he,heq⟩)⟩
  waiting := by
    intro e he
    rcases List.mem_append.mp he with he | he
    · exact h.waiting e he
    · rw [List.mem_singleton.mp he]
      exact fun hmem => Nat.lt_irrefl _ (h.gone _ hmem)
  failed i hi := by
    have hlt := h.failed i hi
    simp only [step, List.length_append]
    omega
  gone i hi := by
    have hlt := h.gone i hi
    simp only [step, List.length_append]
    omega
  counter := by
    intro k
    exact (h.counter k).trans (charged_append h.failed obj).symm
  full := h.full

/-- Taking an event away leaves the rest counted. -/
theorem Counted.rest {w : World} {pod : Event} {rest : List Event} (h : { w with podchannel := pod :: rest }.Counted)
    (store : EndpointStore) : { w with podchannel := rest, store := store }.Counted where
  serial e he := h.serial e (List.mem_cons_of_mem pod he)
  distinct := (List.nodup_cons.mp h.distinct).2
  waiting e he := h.waiting e (List.mem_cons_of_mem pod he)
  failed := h.failed
  gone := h.gone
  counter := h.counter
  full := h.full

theorem FullRetries.cons {w : World} (h : w.FullRetries) (i : ℕ) :
    ∀ j ∈ w.dropped, maxRetries + 1 ≤ (i :: w.failures).count j :=
  fun j hj => (h j hj).trans List.count_le_count_cons

section Failing
variable {w : World} {pod : Event} {rest : List Event} (h : { w with podchannel := pod :: rest }.Counted)
include h

theorem Counted.keyOf_front : keyOf w.sent pod.serial = some pod.key := by
  have hserial := h.serial pod List.mem_cons_self
  dsimp only at hserial
  rw [keyOf, hserial]
  rfl

/-- An event that is given up has failed often enough, if the failures are its own. -/
theorem Counted.drop (hown : ∀ i ∈ w.failures, keyOf w.sent i = some pod.key → i = pod.serial ∨ i ∈ w.dropped)
    (hmax : maxRetries ≤ (w.retries.lookup pod.key).getD 0) :
    { w with
      podchannel := rest
      retries := w.retries.erase pod.key
      failures := pod.serial :: w.failures
      dropped := pod.serial :: w.dropped }.Counted where
  serial e he := h.serial e (List.mem_cons_of_mem pod he)
  distinct := (List.nodup_cons.mp h.distinct).2
  waiting := by
    intro e he
    have hne : e.serial ≠ pod.serial := by
      intro heq
      exact (List.nodup_cons.mp h.distinct).1 (List.mem_map.mpr ⟨e,he,heq⟩)
    simpa [hne] using h.waiting e (List.mem_cons_of_mem pod he)
  failed := by
    have hlt := (List.getElem?_eq_some_iff.mp (h.serial pod List.mem_cons_self)).1
    simpa using ⟨hlt,h.failed⟩
  gone := by
    have hlt := (List.getElem?_eq_some_iff.mp (h.serial pod List.mem_cons_self)).1
    simpa using ⟨hlt,h.gone⟩
  counter := by
    intro k
    by_cases hk : k = pod.key
    · subst hk
      rw [Finmap.lookup_erase, Option.getD_none, charged_eq_zero]
      intro i hi hkey
      rcases List.mem_cons.mp hi with rfl | hi
      · exact List.mem_cons_self
      · exact List.mem_cons.mpr (hown i hi hkey)
    · have hne : keyOf w.sent pod.serial ≠ some k := by
        rw [h.keyOf_front]
        exact fun heq => hk (Option.some.inj heq).symm
      rw [Finmap.lookup_erase_ne hk, charged_cons_of_ne hne, charged_drop_of_ne hne]
      exact h.counter k
  full := by
    intro i hi
    rcases List.mem_cons.mp hi with rfl | hi
    · have hcharged := charged_le_count hown
      have hcounter : (w.retries.lookup pod.key).getD 0 = charged w.sent w.dropped w.failures pod.key :=
        h.counter pod.key
      rw [List.count_cons_self]
      omega
    · exact FullRetries.cons h.full pod.serial i hi

theorem Counted.requeue (expired : Bool) :
    { w with
      retries := w.retries.insert pod.key ((w.retries.lookup pod.key).getD 0 + 1)
      failures := pod.serial :: w.failures
      podchannel := if expired then rest else rest ++ [pod] }.Counted where
  serial e he := by
    apply h.serial e
    cases expired with
    | true => exact List.mem_cons_of_mem pod he
    | false => simpa [or_comm] using he
  distinct := by
    cases expired with
    | true => exact (List.nodup_cons.mp h.distinct).2
    | false =>
      have hperm : ((rest ++ [pod]).map Event.serial).Perm ((pod :: rest).map Event.serial) :=
        List.perm_append_singleton pod rest |>.map _
      exact hperm.nodup_iff.mpr h.distinct
  waiting e he := by
    apply h.waiting e
    cases expired with
    | true => exact List.mem_cons_of_mem pod he
    | false => simpa [or_comm] using he
  failed := by
    have hlt := (List.getElem?_eq_some_iff.mp (h.serial pod List.mem_cons_self)).1
    simpa using ⟨hlt,h.failed⟩
  gone := h.gone
  counter := by
    intro k
    by_cases hk : k = pod.key
    · subst hk
      rw [Finmap.lookup_insert, Option.getD_some, charged_cons_self h.keyOf_front (h.waiting pod List.mem_cons_self)]
      exact congrArg (· + 1) (h.counter pod.key)
    · have hne : keyOf w.sent pod.serial ≠ some k := by
        rw [h.keyOf_front]
        exact fun heq => hk (Option.some.inj heq).symm
      rw [Finmap.lookup_insert_of_ne _ hk, charged_cons_of_ne hne]
      exact h.counter k
  full := FullRetries.cons h.full pod.serial

end Failing

theorem Counted.step {w : World} (h : w.Counted) {op : Op} (hone : w.OneFailing op) : (w.step op).Counted := by
  cases op with
  | send obj => exact h.send obj
  | receive api =>
    cases hchannel : w.podchannel with
    | nil =>
      rw [World.step, hchannel]
      exact h
    | cons pod rest =>
      have hhead : pod ∈ w.podchannel.head? := by rw [hchannel, List.head?_cons, Option.mem_some_iff]
      have hfront : { w with podchannel := pod :: rest }.Counted := by
        rw [← hchannel]
        exact h
      rw [World.step, hchannel]
      dsimp only
      rcases handle_cases { w with podchannel := rest } api pod with
        ⟨hhost,heq⟩ | ⟨hhost,hok,heq⟩ | ⟨hfails,hmax,heq⟩ | ⟨hfails,hmax,heq⟩
      · rw [heq]
        exact hfront.rest w.store
      · rw [heq]
        exact hfront.rest _
      · rw [heq]
        exact hfront.drop (hone pod hhead hfails) hmax
      · rw [heq]
        exact hfront.requeue api.expired

/-- Every event that is given up has had all its retries, if no two events of a pod fail. -/
theorem dropped_after_full_retries (store : EndpointStore) (ops : List Op)
    (hone : Along step OneFailing (start store) ops) : (run step (start store) ops).FullRetries :=
  (invariant (I := Counted) (fun _ _ hw hop => hw.step hop) (counted_start store) hone).full

def hopelessUpdate : List Op :=
  .send ⟨sampleKey,some (samplePod "10.0.0.1")⟩ :: List.replicate 6 (.receive { writeFails := true })

theorem hopelessUpdate_fullRetries :
    (run step (start ∅) hopelessUpdate).dropped = [0] ∧ (run step (start ∅) hopelessUpdate).FullRetries :=
  ⟨by decide,dropped_after_full_retries ∅ hopelessUpdate (by decide)⟩

def chargedUpdate : List Op :=
  .send ⟨sampleKey,some (samplePod "10.0.0.1")⟩ :: List.replicate 5 (.receive { writeFails := true }) ++
    [.receive {},.send ⟨sampleKey,some (samplePod "10.0.0.2")⟩,.receive { writeFails := true }]

/-- The later event is given up after its first attempt. -/
theorem chargedUpdate_dropped :
    (run step (start ∅) chargedUpdate).dropped = [1] ∧ (run step (start ∅) chargedUpdate).failures.count 1 = 1 ∧
      ¬(run step (start ∅) chargedUpdate).FullRetries := by
  refine ⟨by decide,by decide,?_⟩
  intro h
  exact absurd (h 1 (by decide)) (by decide)

end World
end Retina.Operator
