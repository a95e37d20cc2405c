import Retina.Library.Channel
import Retina.Library.Execution

/-! # From the perf array to the enricher

The four plugins that report single events are built alike: a goroutine reads records from the
perf array and offers them to a channel, and workers take them from there, make a flow of each,
write it to the enricher and offer it to the external channel. An offer does not wait, and what is
refused is counted in `LostEventsCounter`. The samples that the kernel could not store are
reported in a record of their own.

The record and the flow are parameters here, and so is what a worker makes of a record.
-/
namespace Retina.Plugins
variable {Record Flow : Type*}

inductive ReadResult (Record : Type*)
  | record (r : Record)
  | lostSamples (n : ℕ)
  | error

def ReadResult.record? : ReadResult Record → Option Record
  | .record r => some r
  | _ => none

def ReadResult.lost : ReadResult Record → ℕ
  | .lostSamples n => n
  | _ => 0

inductive Producer (Record : Type*)
  | reading
  | holding (r : Record)
  | exited
  /-- It has offered the record to a closed channel. -/
  | panicked (r : Record)

inductive Worker (Record Flow : Type*)
  | waiting
  | handling (r : Record)
  /-- The flow is written to the enricher, and not yet offered to the external channel. -/
  | sending (f : Flow)
  | stopped

inductive LostType
  | kernel | bufferedChannel | externalChannel
deriving DecidableEq

abbrev workers : ℕ := 2

structure Plugin (Record Flow : Type*) where
  buffer : ℕ
  /-- What a worker makes of a record, if it makes something of it. -/
  handle : Record → Option Flow
  /-- There is an enricher, and there is an external channel. -/
  enricher : Bool
  externalChannel : Bool
  /-- The method `Stop` closes the channel of the records. -/
  closesChannel : Bool

/-- The last six fields are what the plugin has done so far. -/
structure Pipeline (Record Flow : Type*) where
  producer : Producer Record := .reading
  recordsChannel : Channel Record
  workers : Fin workers → Worker Record Flow := fun _ => .waiting
  lostEvents : LostType → ℕ := fun _ => 0
  done : Bool := false
  readerClosed : Bool := false
  read : List (ReadResult Record) := []
  refused : List Record := []
  handled : List Record := []
  written : List Flow := []
  sent : List Flow := []
  unsent : List Flow := []

/-- The steps of the goroutines. A worker that is told to stop may take another record first. -/
inductive PipelineOp (Record : Type*)
  | read (result : ReadResult Record)
  | offer
  | producerExit
  | take (id : Fin workers)
  | handle (id : Fin workers)
  /-- Whether the external channel has room depends on the other plugins and on its reader. -/
  | send (id : Fin workers) (room : Bool)
  | workerExit (id : Fin workers)
  | cancel
  | closeReader
  | closeChannel

namespace Pipeline

def start (plugin : Plugin Record Flow) : Pipeline Record Flow := { recordsChannel := { capacity := plugin.buffer } }

def inc (s : Pipeline Record Flow) (t : LostType) (n : ℕ) : Pipeline Record Flow :=
  { s with lostEvents := Function.update s.lostEvents t (s.lostEvents t + n) }

def setWorker (s : Pipeline Record Flow) (id : Fin Plugins.workers) (w : Worker Record Flow) : Pipeline Record Flow :=
  { s with workers := Function.update s.workers id w }

/-- A closed reader returns an error. -/
def readData (s : Pipeline Record Flow) (result : ReadResult Record) : Pipeline Record Flow :=
  if s.readerClosed then s
  else
    match result with
    | .record r => { s with producer := .holding r, read := s.read ++ [result] }
    | .lostSamples n => { s.inc .kernel n with read := s.read ++ [result] }
    | .error => { s with read := s.read ++ [result] }

def offer (s : Pipeline Record Flow) (r : Record) : Pipeline Record Flow :=
  if s.recordsChannel.closed then { s with producer := .panicked r }
  else
    match s.recordsChannel.trySend r with
    | some channel => { s with producer := .reading, recordsChannel := channel }
    | none => { s.inc .bufferedChannel 1 with producer := .reading, refused := s.refused ++ [r] }

def take (s : Pipeline Record Flow) (id : Fin Plugins.workers) : Pipeline Record Flow :=
  match s.recordsChannel.receive with
  | some (r,channel) => { s.setWorker id (.handling r) with recordsChannel := channel }
  | none => s

def handleRecord (plugin : Plugin Record Flow) (s : Pipeline Record Flow) (id : Fin Plugins.workers) (r : Record) :
    Pipeline Record Flow :=
  match plugin.handle r with
  | none => { s.setWorker id .waiting with handled := s.handled ++ [r] }
  | some f =>
    { s.setWorker id (if plugin.externalChannel then .sending f else .waiting) with
      handled := s.handled ++ [r]
      written := if plugin.enricher then s.written ++ [f] else s.written }

def sendExternal (s : Pipeline Record Flow) (id : Fin Plugins.workers) (f : Flow) (room : Bool) :
    Pipeline Record Flow :=
  if room then { s.setWorker id .waiting with sent := s.sent ++ [f] }
  else { (s.inc .externalChannel 1).setWorker id .waiting with unsent := s.unsent ++ [f] }

/-- A step that a goroutine cannot take changes nothing. A worker that finds the channel closed and empty takes the
zero record, from which no plugin makes a flow. -/
def goroutineStep (plugin : Plugin Record Flow) (s : Pipeline Record Flow) : PipelineOp Record → Pipeline Record Flow
  | .read result =>
    match s.producer with
    | .reading => s.readData result
    | _ => s
  | .offer =>
    match s.producer with
    | .holding r => s.offer r
    | _ => s
  | .producerExit =>
    match s.producer with
    | .reading => if s.done || s.readerClosed then { s with producer := .exited } else s
    | _ => s
  | .take id =>
    match s.workers id with
    | .waiting => s.take id
    | _ => s
  | .handle id =>
    match s.workers id with
    | .handling r => s.handleRecord plugin id r
    | _ => s
  | .send id room =>
    match s.workers id with
    | .sending f => s.sendExternal id f room
    | _ => s
  | .workerExit id =>
    match s.workers id with
    | .waiting => if s.done then s.setWorker id .stopped else s
    | _ => s
  | .cancel => { s with done := true }
  | .closeReader => { s with readerClosed := true }
  | .closeChannel =>
    if plugin.closesChannel then { s with recordsChannel := { s.recordsChannel with closed := true } } else s

/-- A panic ends the process. -/
def step (plugin : Plugin Record Flow) (s : Pipeline Record Flow) (op : PipelineOp Record) : Pipeline Record Flow :=
  match s.producer with
  | .panicked _ => s
  | _ => s.goroutineStep plugin op

def handles (s : Pipeline Record Flow) : PipelineOp Record → Option Record
  | .handle id =>
    match s.producer,s.workers id with
    | .panicked _,_ => none
    | _,.handling r => some r
    | _,_ => none
  | _ => none

end Pipeline

/-! ## Every record is accounted for -/

def Producer.records : Producer Record → Multiset Record
  | .holding r => {r}
  | .panicked r => {r}
  | _ => 0

def Worker.records : Worker Record Flow → Multiset Record
  | .handling r => {r}
  | _ => 0

def Worker.flows : Worker Record Flow → Multiset Flow
  | .sending f => {f}
  | _ => 0

section Held
variable (r : Record) (f : Flow)

@[simp] theorem Worker.records_waiting : (.waiting : Worker Record Flow).records = 0 := rfl
@[simp] theorem Worker.records_handling : (.handling r : Worker Record Flow).records = {r} := rfl
@[simp] theorem Worker.records_sending : (.sending f : Worker Record Flow).records = 0 := rfl
@[simp] theorem Worker.records_stopped : (.stopped : Worker Record Flow).records = 0 := rfl
@[simp] theorem Worker.flows_waiting : (.waiting : Worker Record Flow).flows = 0 := rfl
@[simp] theorem Worker.flows_handling : (.handling r : Worker Record Flow).flows = 0 := rfl
@[simp] theorem Worker.flows_sending : (.sending f : Worker Record Flow).flows = {f} := rfl
@[simp] theorem Worker.flows_stopped : (.stopped : Worker Record Flow).flows = 0 := rfl
@[simp] theorem ReadResult.record?_record : (ReadResult.record r).record? = some r := rfl
@[simp] theorem ReadResult.record?_lostSamples (n : ℕ) : (.lostSamples n : ReadResult Record).record? = none := rfl
@[simp] theorem ReadResult.record?_error : (.error : ReadResult Record).record? = none := rfl

end Held

/-- A record that was read is still in the hands of a goroutine or in the channel, or it was handled, or it was refused
and counted. The same holds of a flow that was made from a record. -/
structure Accounted (plugin : Plugin Record Flow) (s : Pipeline Record Flow) : Prop where
  records : (s.read.filterMap ReadResult.record? : Multiset Record) =
    s.producer.records + s.recordsChannel.queue + ∑ id, (s.workers id).records + s.handled + s.refused
  capacity : s.recordsChannel.capacity = plugin.buffer
  bounded : s.recordsChannel.queue.length ≤ plugin.buffer
  written : s.written = if plugin.enricher then s.handled.filterMap plugin.handle else []
  flows : ((if plugin.externalChannel then s.handled.filterMap plugin.handle else [] : List Flow) : Multiset Flow) =
    ∑ id, (s.workers id).flows + s.sent + s.unsent
  kernel : s.lostEvents .kernel = (s.read.map ReadResult.lost).sum
  bufferedChannel : s.lostEvents .bufferedChannel = s.refused.length
  externalChannel : s.lostEvents .externalChannel = s.unsent.length

variable {plugin : Plugin Record Flow} {s : Pipeline Record Flow}

theorem accounted_start (plugin : Plugin Record Flow) : Accounted plugin (.start plugin) where
  records := by simp [Pipeline.start, Producer.records]
  capacity := rfl
  bounded := Nat.zero_le _
  written := by simp [Pipeline.start]
  flows := by simp [Pipeline.start]
  kernel := rfl
  bufferedChannel := rfl
  externalChannel := rfl

/-- What the workers hold after one of them has moved on. -/
theorem sum_records_update {id : Fin workers} {w : Worker Record Flow} (hw : s.workers id = w)
    (w' : Worker Record Flow) :
    ∑ i, (Function.update s.workers id w' i).records + w.records = ∑ i, (s.workers i).records + w'.records :=
  hw ▸ sum_update_add Worker.records s.workers id w'

theorem sum_flows_update {id : Fin workers} {w : Worker Record Flow} (hw : s.workers id = w)
    (w' : Worker Record Flow) :
    ∑ i, (Function.update s.workers id w' i).flows + w.flows = ∑ i, (s.workers i).flows + w'.flows :=
  hw ▸ sum_update_add Worker.flows s.workers id w'

theorem handled_readData (s : Pipeline Record Flow) (result : ReadResult Record) :
    (s.readData result).handled = s.handled := by
  unfold Pipeline.readData
  split
  · rfl
  · cases result <;> rfl

theorem handled_offer (s : Pipeline Record Flow) (r : Record) : (s.offer r).handled = s.handled := by
  unfold Pipeline.offer
  split
  · rfl
  · split <;> rfl

theorem handled_take (s : Pipeline Record Flow) (id : Fin workers) : (s.take id).handled = s.handled := by
  unfold Pipeline.take
  split <;> rfl

theorem handled_handleRecord (plugin : Plugin Record Flow) (s : Pipeline Record Flow) (id : Fin workers) (r : Record) :
    (s.handleRecord plugin id r).handled = s.handled ++ [r] := by
  unfold Pipeline.handleRecord
  split <;> rfl

theorem handled_sendExternal (s : Pipeline Record Flow) (id : Fin workers) (f : Flow) (room : Bool) :
    (s.sendExternal id f room).handled = s.handled := by
  unfold Pipeline.sendExternal
  split <;> rfl

theorem handled_step (plugin : Plugin Record Flow) (s : Pipeline Record Flow) (op : PipelineOp Record) :
    (s.step plugin op).handled = s.handled ++ (s.handles op).toList := by
  cases op with
  | handle id =>
    cases hp : s.producer <;> cases hw : s.workers id <;>
      simp [Pipeline.step, Pipeline.goroutineStep, Pipeline.handles, hp, hw, handled_handleRecord]
  | read result =>
    cases hp : s.producer <;> simp [Pipeline.step, Pipeline.goroutineStep, Pipeline.handles, hp, handled_readData]
  | offer => cases hp : s.producer <;> simp [Pipeline.step, Pipeline.goroutineStep, Pipeline.handles, hp, handled_offer]
  | producerExit =>
    cases hp : s.producer <;> simp [Pipeline.step, Pipeline.goroutineStep, Pipeline.handles, hp]
    split <;> rfl
  | take id =>
    cases hp : s.producer <;> cases hw : s.workers id <;>
      simp [Pipeline.step, Pipeline.goroutineStep, Pipeline.handles, hp, hw, handled_take]
  | send id room =>
    cases hp : s.producer <;> cases hw : s.workers id <;>
      simp [Pipeline.step, Pipeline.goroutineStep, Pipeline.handles, hp, hw, handled_sendExternal]
  | workerExit id =>
    cases hp : s.producer <;> cases hw : s.workers id <;>
      simp [Pipeline.step, Pipeline.goroutineStep, Pipeline.handles, hp, hw] <;> split <;> rfl
  | cancel => cases hp : s.producer <;> simp [Pipeline.step, Pipeline.goroutineStep, Pipeline.handles, hp]
  | closeReader => cases hp : s.producer <;> simp [Pipeline.step, Pipeline.goroutineStep, Pipeline.handles, hp]
  | closeChannel =>
    cases hp : s.producer <;> simp [Pipeline.step, Pipeline.goroutineStep, Pipeline.handles, hp] <;> split <;> rfl

namespace Accounted

theorem readData (hs : Accounted plugin s) (hp : s.producer = .reading) (result : ReadResult Record) :
    Accounted plugin (s.readData result) := by
  unfold Pipeline.readData
  have hrec := hs.records
  rw [hp] at hrec
  split
  · exact hs
  · cases result with
    | record r =>
      refine { hs with records := ?_, kernel := ?_ }
      · simp only [List.filterMap_append, List.filterMap_cons, List.filterMap_nil, ReadResult.record?_record,
          Producer.records, ← Multiset.coe_add, Multiset.coe_singleton, hrec]
        abel
      · simpa [ReadResult.lost] using hs.kernel
    | lostSamples n =>
      refine { hs with records := ?_, kernel := ?_, bufferedChannel := ?_, externalChannel := ?_ }
      · simpa [List.filterMap_cons, Pipeline.inc] using hs.records
      · simp [Pipeline.inc, ReadResult.lost, hs.kernel]
      · simpa [Pipeline.inc] using hs.bufferedChannel
      · simpa [Pipeline.inc] using hs.externalChannel
    | error =>
      refine { hs with records := ?_, kernel := ?_ }
      · simpa [List.filterMap_cons] using hs.records
      · simpa [ReadResult.lost] using hs.kernel

theorem offer (hs : Accounted plugin s) {r : Record} (hp : s.producer = .holding r) :
    Accounted plugin (s.offer r) := by
  unfold Pipeline.offer
  have hrec := hs.records
  rw [hp] at hrec
  split
  · exact { hs with records := hrec }
  · cases hsend : s.recordsChannel.trySend r with
    | some channel =>
      obtain ⟨hroom,rfl⟩ := Channel.trySend_eq_some hsend
      refine { hs with records := ?_, capacity := hs.capacity, bounded := ?_ }
      · simp only [hrec, Producer.records, ← Multiset.coe_add, Multiset.coe_singleton]
        abel
      · have := hs.capacity
        simp only [List.length_append, List.length_singleton]
        omega
    | none =>
      refine { hs with records := ?_, kernel := ?_, bufferedChannel := ?_, externalChannel := ?_ }
      · simp only [Pipeline.inc, hrec, Producer.records, ← Multiset.coe_add, Multiset.coe_singleton]
        abel
      · simpa [Pipeline.inc] using hs.kernel
      · simp [Pipeline.inc, hs.bufferedChannel]
      · simpa [Pipeline.inc] using hs.externalChannel

theorem take (hs : Accounted plugin s) {id : Fin workers} (hw : s.workers id = .waiting) :
    Accounted plugin (s.take id) := by
  unfold Pipeline.take
  cases hreceive : s.recordsChannel.receive with
  | none => exact hs
  | some received =>
    obtain ⟨r,channel⟩ := received
    obtain ⟨hqueue,hcap⟩ := Channel.receive_eq_some hreceive
    have hsum := sum_records_update hw (.handling r)
    have hflows := sum_flows_update hw (.handling r)
    simp only [Worker.records_waiting, Worker.records_handling, Worker.flows_waiting, Worker.flows_handling,
      add_zero] at hsum hflows
    refine { hs with records := ?_, capacity := hcap.trans hs.capacity, bounded := ?_, flows := ?_ }
    · have hrec := hs.records
      rw [hqueue, ← Multiset.cons_coe, ← Multiset.singleton_add] at hrec
      simp only [Pipeline.setWorker]
      rw [hrec, hsum]
      abel
    · have := hs.bounded
      rw [hqueue] at this
      exact (Nat.le_succ _).trans this
    · simp only [Pipeline.setWorker]
      rw [hflows]
      exact hs.flows

theorem handleRecord (hs : Accounted plugin s) {id : Fin workers} {r : Record} (hw : s.workers id = .handling r) :
    Accounted plugin (s.handleRecord plugin id r) := by
  have hmoved : ∀ w : Worker Record Flow, w.records = 0 →
      (s.read.filterMap ReadResult.record? : Multiset Record) = s.producer.records + s.recordsChannel.queue +
        ∑ i, (Function.update s.workers id w i).records + (s.handled ++ [r] : List Record) + s.refused := by
    intro w hzero
    have hsum := sum_records_update hw w
    rw [hzero, add_zero, Worker.records_handling] at hsum
    rw [hs.records, ← hsum, ← Multiset.coe_add, Multiset.coe_singleton]
    abel
  have hflows := sum_flows_update hw
  simp only [Worker.flows_handling, add_zero] at hflows
  unfold Pipeline.handleRecord
  cases hhandle : plugin.handle r with
  | none =>
    refine { hs with records := hmoved _ rfl, written := ?_, flows := ?_ }
    · simpa [Pipeline.setWorker, List.filterMap_cons, hhandle] using hs.written
    · simpa [Pipeline.setWorker, List.filterMap_cons, hhandle, hflows] using hs.flows
  | some f =>
    refine { hs with records := hmoved _ ?_, written := ?_, flows := ?_ }
    · split <;> rfl
    · have := hs.written
      split at this <;> simp_all
    · have hprev := hs.flows
      simp only [Pipeline.setWorker, hflows]
      split at hprev
      next hext =>
        simp only [if_pos hext, List.filterMap_append, List.filterMap_cons, List.filterMap_nil, hhandle,
          ← Multiset.coe_add, Multiset.coe_singleton, hprev, Worker.flows_sending]
        abel
      next hext => simpa [if_neg hext] using hprev

theorem sendExternal (hs : Accounted plugin s) {id : Fin workers} {f : Flow} (hw : s.workers id = .sending f)
    (room : Bool) : Accounted plugin (s.sendExternal id f room) := by
  have hsum := sum_records_update hw .waiting
  have hflows := sum_flows_update hw .waiting
  simp only [Worker.records_waiting, Worker.records_sending, Worker.flows_waiting, Worker.flows_sending,
    add_zero] at hsum hflows
  unfold Pipeline.sendExternal
  split
  · refine { hs with records := ?_, flows := ?_ }
    · simp only [Pipeline.setWorker, hsum]
      exact hs.records
    · simp only [Pipeline.setWorker]
      rw [hs.flows, ← hflows, ← Multiset.coe_add, Multiset.coe_singleton]
      abel
  · refine { hs with records := ?_, flows := ?_, kernel := ?_, bufferedChannel := ?_, externalChannel := ?_ }
    · simp only [Pipeline.setWorker, Pipeline.inc, hsum]
      exact hs.records
    · simp only [Pipeline.setWorker, Pipeline.inc]
      rw [hs.flows, ← hflows, ← Multiset.coe_add, Multiset.coe_singleton]
      abel
    · simpa [Pipeline.setWorker, Pipeline.inc] using hs.kernel
    · simpa [Pipeline.setWorker, Pipeline.inc] using hs.bufferedChannel
    · simp [Pipeline.setWorker, Pipeline.inc, hs.externalChannel]

theorem workerExit (hs : Accounted plugin s) {id : Fin workers} (hw : s.workers id = .waiting) :
    Accounted plugin (s.setWorker id .stopped) := by
  have hsum := sum_records_update hw .stopped
  have hflows := sum_flows_update hw .stopped
  simp only [Worker.records_waiting, Worker.records_stopped, Worker.flows_waiting, Worker.flows_stopped,
    add_zero] at hsum hflows
  refine { hs with records := ?_, flows := ?_ }
  · simp only [Pipeline.setWorker, hsum]
    exact hs.records
  · simp only [Pipeline.setWorker, hflows]
    exact hs.flows

theorem goroutineStep (hs : Accounted plugin s) (op : PipelineOp Record) :
    Accounted plugin (s.goroutineStep plugin op) := by
  cases op with
  | read result =>
    cases hp : s.producer <;> simp only [Pipeline.goroutineStep, hp]
    · exact hs.readData hp result
    all_goals exact hs
  | offer =>
    cases hp : s.producer <;> simp only [Pipeline.goroutineStep, hp]
    case holding r => exact hs.offer hp
    all_goals exact hs
  | producerExit =>
    cases hp : s.producer <;> simp only [Pipeline.goroutineStep, hp]
    case reading =>
      split
      · exact { hs with records := by simpa [hp, Producer.records] using hs.records }
      · exact hs
    all_goals exact hs
  | take id =>
    cases hw : s.workers id <;> simp only [Pipeline.goroutineStep, hw]
    · exact hs.take hw
    all_goals exact hs
  | handle id =>
    cases hw : s.workers id <;> simp only [Pipeline.goroutineStep, hw]
    case handling r => exact hs.handleRecord hw
    all_goals exact hs
  | send id room =>
    cases hw : s.workers id <;> simp only [Pipeline.goroutineStep, hw]
    case sending f => exact hs.sendExternal hw room
    all_goals exact hs
  | workerExit id =>
    cases hw : s.workers id <;> simp only [Pipeline.goroutineStep, hw]
    case waiting =>
      split
      · exact hs.workerExit hw
      · exact hs
    all_goals exact hs
  | cancel => exact { hs with }
  | closeReader => exact { hs with }
  | closeChannel =>
    simp only [Pipeline.goroutineStep]
    split
    · exact { hs with }
    · exact hs

theorem step (hs : Accounted plugin s) (op : PipelineOp Record) : Accounted plugin (s.step plugin op) := by
  unfold Pipeline.step
  split
  · exact hs
  · exact hs.goroutineStep op

end Accounted

theorem accounted_run (plugin : Plugin Record Flow) (ops : List (PipelineOp Record)) :
    Accounted plugin (Execution.run (Pipeline.step plugin) (.start plugin) ops) :=
  Execution.invariant_of_step (fun _ op hs => hs.step op) (accounted_start plugin) ops

end Retina.Plugins
