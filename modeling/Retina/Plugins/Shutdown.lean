import Retina.Plugins.EventPipeline

/-! # Stopping a plugin

`Stop` closes the reader of the perf array and then the channel of the records. It does not wait for the goroutine that
reads the records, which may have got a record before the reader was closed and offer it to the closed channel.
-/
namespace Retina.Plugins
variable {Record Flow : Type*}

def StopsInOrder (s : Pipeline Record Flow) : PipelineOp Record → Prop
  | .closeChannel => s.readerClosed = true
  | _ => True

def ClosesIdle (plugin : Plugin Record Flow) (s : Pipeline Record Flow) : PipelineOp Record → Prop
  | .closeChannel => plugin.closesChannel = true → ∀ r, s.producer ≠ .holding r
  | _ => True

structure Calm (s : Pipeline Record Flow) : Prop where
  closed : s.recordsChannel.closed = true → s.readerClosed = true ∧ ∀ r, s.producer ≠ .holding r
  alive : ∀ r, s.producer ≠ .panicked r

variable {plugin : Plugin Record Flow} {s : Pipeline Record Flow}

theorem calm_start (plugin : Plugin Record Flow) : Calm (.start plugin) := ⟨nofun,nofun⟩

/-- Steps of the workers do not concern the producer. -/
theorem Calm.of_eq {s' : Pipeline Record Flow} (hs : Calm s) (hproducer : s'.producer = s.producer)
    (hclosed : s'.recordsChannel.closed = s.recordsChannel.closed) (hreader : s'.readerClosed = s.readerClosed) :
    Calm s' := by
  refine ⟨fun h => ?_,fun r => ?_⟩
  · rw [hreader, hproducer]
    exact hs.closed (hclosed.symm.trans h)
  · rw [hproducer]
    exact hs.alive r

theorem Calm.readData (hs : Calm s) (result : ReadResult Record) : Calm (s.readData result) := by
  unfold Pipeline.readData
  split
  · exact hs
  next hopen =>
    have hchannel : s.recordsChannel.closed ≠ true := fun h => hopen (hs.closed h).1
    cases result with
    | record r => exact ⟨fun h => absurd h hchannel,nofun⟩
    | lostSamples n => exact hs.of_eq rfl rfl rfl
    | error => exact hs.of_eq rfl rfl rfl

theorem Calm.offer (hs : Calm s) {r : Record} (hp : s.producer = .holding r) : Calm (s.offer r) := by
  have hopen : s.recordsChannel.closed ≠ true := fun h => (hs.closed h).2 r hp
  rw [Pipeline.offer, if_neg hopen]
  cases hsend : s.recordsChannel.trySend r with
  | none => exact ⟨fun h => absurd h hopen,nofun⟩
  | some channel =>
    obtain ⟨-,rfl⟩ := Channel.trySend_eq_some hsend
    exact ⟨fun h => absurd h hopen,nofun⟩

theorem Calm.take (hs : Calm s) (id : Fin workers) : Calm (s.take id) := by
  unfold Pipeline.take
  cases hreceive : s.recordsChannel.receive with
  | none => exact hs
  | some received =>
    obtain ⟨r,channel⟩ := received
    have hclosed : channel.closed = s.recordsChannel.closed := by
      unfold Channel.receive at hreceive
      split at hreceive <;> cases hreceive
      rfl
    exact hs.of_eq rfl hclosed rfl

theorem Calm.closeChannel (hs : Calm s) (hreader : s.readerClosed = true)
    (hidle : plugin.closesChannel = true → ∀ r, s.producer ≠ .holding r) :
    Calm (s.goroutineStep plugin .closeChannel) := by
  simp only [Pipeline.goroutineStep]
  split
  next h => exact ⟨fun _ => ⟨hreader,hidle h⟩,hs.alive⟩
  · exact hs

theorem step_of_alive (plugin : Plugin Record Flow) (h : ∀ r, s.producer ≠ .panicked r) (op : PipelineOp Record) :
    s.step plugin op = s.goroutineStep plugin op := by
  unfold Pipeline.step
  split
  next r hp => exact absurd hp (h r)
  · rfl

theorem Calm.step (hs : Calm s) (op : PipelineOp Record) (horder : StopsInOrder s op) (hidle : ClosesIdle plugin s op) :
    Calm (s.step plugin op) := by
  rw [step_of_alive plugin hs.alive]
  cases op with
  | closeChannel => exact hs.closeChannel horder hidle
  | read result =>
    cases hp : s.producer <;> simp only [Pipeline.goroutineStep, hp]
    case reading => exact hs.readData result
    all_goals exact hs
  | offer =>
    cases hp : s.producer <;> simp only [Pipeline.goroutineStep, hp]
    case holding r => exact hs.offer hp
    all_goals exact hs
  | producerExit =>
    cases hp : s.producer <;> simp only [Pipeline.goroutineStep, hp]
    case reading =>
      split
      · exact ⟨fun h => ⟨(hs.closed h).1,by simp⟩,by simp⟩
      · exact hs
    all_goals exact hs
  | take id =>
    cases hw : s.workers id <;> simp only [Pipeline.goroutineStep, hw]
    case waiting => exact hs.take id
    all_goals exact hs
  | handle id =>
    cases hw : s.workers id <;> simp only [Pipeline.goroutineStep, hw]
    case handling r =>
      unfold Pipeline.handleRecord
      split <;> exact hs.of_eq rfl rfl rfl
    all_goals exact hs
  | send id room =>
    cases hw : s.workers id <;> simp only [Pipeline.goroutineStep, hw]
    case sending f =>
      unfold Pipeline.sendExternal
      split <;> exact hs.of_eq rfl rfl rfl
    all_goals exact hs
  | workerExit id =>
    cases hw : s.workers id <;> simp only [Pipeline.goroutineStep, hw]
    case waiting =>
      split
      · exact hs.of_eq rfl rfl rfl
      · exact hs
    all_goals exact hs
  | cancel => exact hs.of_eq rfl rfl rfl
  | closeReader => exact ⟨fun h => ⟨rfl,(hs.closed h).2⟩,hs.alive⟩

/-- A plugin that closes its channel while its producer has a record ends the agent with the next step of the
producer. -/
theorem panicked_of_holding {r : Record} (hp : s.producer = .holding r) (hcloses : plugin.closesChannel = true) :
    ((s.step plugin .closeChannel).step plugin .offer).producer = .panicked r := by
  have hclosed : s.step plugin .closeChannel =
      { s with recordsChannel := { s.recordsChannel with closed := true } } := by
    rw [step_of_alive plugin (by simp [hp])]
    exact if_pos hcloses
  rw [hclosed, step_of_alive plugin (by simp [hp])]
  simp only [Pipeline.goroutineStep, hp]
  rfl

/-- Stopping a plugin cannot end the agent by a send on a closed channel exactly if the channel is closed while the
producer has no record. That its workers have stopped, or that the reader is closed, is not enough. A plugin that does
not close its channel is always safe. -/
theorem stop_safe_iff (plugin : Plugin Record Flow) (ops : List (PipelineOp Record))
    (horder : Execution.Along (Pipeline.step plugin) StopsInOrder (.start plugin) ops) :
    (∀ earlier, earlier <+: ops →
        ∀ r, (Execution.run (Pipeline.step plugin) (.start plugin) (earlier ++ [.offer])).producer ≠ .panicked r) ↔
      Execution.Along (Pipeline.step plugin) (ClosesIdle plugin) (.start plugin) ops := by
  have hcalm : ∀ es, Execution.Along (Pipeline.step plugin) StopsInOrder (.start plugin) es →
      Execution.Along (Pipeline.step plugin) (ClosesIdle plugin) (.start plugin) es →
      Calm (Execution.run (Pipeline.step plugin) (.start plugin) es) := fun es hD hC =>
    Execution.invariant (fun s op hs h => hs.step op h.1 h.2) (calm_start plugin) (hD.and hC)
  refine Execution.forall_prefix_iff_along (fun es hD hC => ?_) (fun es op hD hC _ hop => ?_) horder
  · rw [Execution.run_append]
    exact ((hcalm es hD hC).step .offer trivial trivial).alive
  · rw [Execution.run_append, Execution.run_append]
    cases op with
    | closeChannel =>
      simp only [ClosesIdle, not_forall, not_not] at hop
      obtain ⟨hcloses,r,hp⟩ := hop
      exact fun h => h r (panicked_of_holding hp hcloses)
    | _ => exact absurd trivial hop

def closingPlugin : Plugin Unit Unit := ⟨10000,some,true,false,true⟩

def lateRecord : List (PipelineOp Unit) :=
  [.read (.record ()),.cancel,.workerExit ⟨0,by decide⟩,.workerExit ⟨1,by decide⟩,.closeReader,.closeChannel]

theorem stop_unsafe_lateRecord : ¬∀ earlier, earlier <+: lateRecord → ∀ r, (Execution.run
    (Pipeline.step closingPlugin) (.start closingPlugin) (earlier ++ [.offer])).producer ≠ .panicked r := by
  rw [stop_safe_iff closingPlugin lateRecord ⟨trivial,trivial,trivial,trivial,trivial,rfl,trivial⟩]
  exact fun h => h.2.2.2.2.2.1 rfl () rfl

end Retina.Plugins
