import Retina.Conntrack.Accounting
import Retina.Library.FiniteMap

/-! # Accounting of all connections

A call that removes an entry reports the pending counters of its own direction
only. What the opposite direction has pending leaves the accounts with the entry,
so the totals of a run are exact unless a removal finds something pending there or
a guarded addition skips a packet.
-/
namespace Retina.Conntrack

def processedTotal (ctr : Counter) (history : List Visit) : ℕ := (history.map fun v => v.amount ctr).sum

def reportedTotal (ctr : Counter) (history : List Visit) : ℕ :=
  ((history.filter fun v => v.report.report).map fun v => v.report.observed ctr + v.amount ctr).sum

def CtEntry.pending (entry : CtEntry) (ctr : Counter) : ℕ := entry.txDir.pending ctr + entry.rxDir.pending ctr

def pendingTotal (ctr : Counter) (map : CtMap) : ℕ := FiniteMap.sum (fun entry => entry.pending ctr) map

/-- What a call takes out of the accounts: the pending value of the opposite direction
if it removes the entry that it finds, or the packet if it holds it back with a
saturated counter. -/
def Call.lost (cfg : Config) (map : CtMap) (c : Call) (ctr : Counter) : ℕ :=
  match c.direction map with
  | none => 0
  | some d =>
    let key := c.packet.connectionKey d
    match map.lookup key with
    | none => 0
    | some entry =>
      if removes c.now key entry c.flags d then (entry.dir d.other).pending ctr
      else if reports cfg c.now key entry c.flags d c.sampled then 0
      else if (entry.dir d).pending ctr + amount c.flags c.packet.bytes ctr ≤ counterLimit then 0
      else amount c.flags c.packet.bytes ctr

theorem CtEntry.pending_eq (entry : CtEntry) (ctr : Counter) (d : Direction) :
    entry.pending ctr = (entry.dir d).pending ctr + (entry.dir d.other).pending ctr := by
  cases d with
  | tx => rfl
  | rx => exact Nat.add_comm _ _

theorem processedTotal_cons (ctr : Counter) (v : Visit) (history : List Visit) :
    processedTotal ctr (v :: history) = v.amount ctr + processedTotal ctr history := List.sum_cons

theorem reportedTotal_cons (ctr : Counter) (v : Visit) (history : List Visit) :
    reportedTotal ctr (v :: history) =
      (if v.report.report then v.report.observed ctr + v.amount ctr else 0) + reportedTotal ctr history := by
  rw [reportedTotal, List.filter_cons]
  split
  · exact List.sum_cons
  · exact (Nat.zero_add _).symm

theorem amount_le (flags : UInt8) (bytes : UInt32) (ctr : Counter) : amount flags bytes ctr ≤ counterLimit := by
  have hone : 1 ≤ counterLimit := by decide
  cases ctr with
  | packets => exact hone
  | bytes => exact Nat.le_of_lt_succ bytes.toNat_lt
  | flag f =>
    change (if _ then 1 else 0) ≤ counterLimit
    split
    · exact hone
    · exact Nat.zero_le _

theorem Call.lost_of_found (cfg : Config) {map : CtMap} {c : Call} {d : Direction} {entry : CtEntry}
    (hf : Found map c.packet d entry) (ctr : Counter) :
    c.lost cfg map ctr =
      if removes c.now (c.packet.connectionKey d) entry c.flags d then (entry.dir d.other).pending ctr
      else if reports cfg c.now (c.packet.connectionKey d) entry c.flags d c.sampled then 0
      else if (entry.dir d).pending ctr + amount c.flags c.packet.bytes ctr ≤ counterLimit then 0
      else amount c.flags c.packet.bytes ctr := by
  simp only [Call.lost, hf.direction, hf.lookup]

theorem Call.lost_of_missed (cfg : Config) {map : CtMap} {c : Call} (hm : Missed map c.packet) (ctr : Counter) :
    c.lost cfg map ctr = 0 := by
  unfold Call.lost
  split
  · rfl
  · dsimp only
    rw [hm.lookup]

/-! ## What a call does to the pending amounts -/

theorem pendingTotal_born {cfg : Config} {map : CtMap} {c : Call} {d : Direction} {entry : CtEntry}
    (hm : Missed map c.packet) (hb : Born cfg c d entry) {ctr : Counter} (hc : ∀ proto, ctr.counted proto = true) :
    pendingTotal ctr (map.insert (c.packet.connectionKey d) entry) =
      (if c.sampled then 0 else amount c.flags c.packet.bytes ctr) + pendingTotal ctr map := by
  have hpending : (entry.dir d).pending ctr = if c.sampled then 0 else amount c.flags c.packet.bytes ctr := by
    rw [hb.dir, pending_newDirection _ _ _ (hc _), DeferredCounter.add_of_le (by
      rw [Nat.zero_add]
      exact amount_le _ _ _), Nat.zero_add]
    rfl
  have hsum : pendingTotal ctr (map.insert (c.packet.connectionKey d) entry) =
      entry.pending ctr + pendingTotal ctr map :=
    FiniteMap.sum_insert_of_none (CtEntry.pending · ctr) entry (hm.lookup d)
  rw [hsum, entry.pending_eq ctr d, hb.other, pending_default, hpending, Nat.add_zero]

/-- The other direction of a kept entry holds what it held before. -/
theorem pendingTotal_kept {cfg : Config} {map : CtMap} {c : Call} {d : Direction} {entry kept : CtEntry}
    {reported : Bool} (hf : Found map c.packet d entry)
    (hk : Kept c.now (c.packet.connectionKey d) c.flags c.packet.bytes d reported
      (countEntry cfg entry d c.packet.bytes) kept) (ctr : Counter) :
    (entry.dir d).pending ctr + pendingTotal ctr (map.insert (c.packet.connectionKey d) kept) =
      (if reported then 0 else
        DeferredCounter.add counterLimit ((entry.dir d).pending ctr) (amount c.flags c.packet.bytes ctr)) +
        pendingTotal ctr map := by
  have hsum : entry.pending ctr + pendingTotal ctr (map.insert (c.packet.connectionKey d) kept) =
      kept.pending ctr + pendingTotal ctr map :=
    FiniteMap.sum_insert_of_some (CtEntry.pending · ctr) kept hf.lookup
  have hother : (kept.dir d.other).pending ctr = (entry.dir d.other).pending ctr := by
    rw [hk.other, countEntry_dir]
  have hown := hk.pending ctr
  rw [countEntry_dir] at hown
  rw [entry.pending_eq ctr d, kept.pending_eq ctr d, hother, hown] at hsum
  omega

theorem pendingTotal_removed {map : CtMap} {p : Packet} {d : Direction} {entry : CtEntry} (hf : Found map p d entry)
    (ctr : Counter) :
    (entry.dir d).pending ctr + (entry.dir d.other).pending ctr + pendingTotal ctr (map.erase (p.connectionKey d)) =
      pendingTotal ctr map := by
  rw [← entry.pending_eq ctr d]
  exact FiniteMap.sum_erase (CtEntry.pending · ctr) hf.lookup

/-- The balance of a call that is processed on an entry: its packet is reported, pending
or lost, and so is everything that was pending before. -/
theorem Call.process_balance (cfg : Config) (map : CtMap) (c : Call) {d : Direction}
    (hd : c.direction map = some d) {ctr : Counter} (hc : ∀ proto, ctr.counted proto = true) :
    (if (c.process cfg map).report.report then
        (c.process cfg map).report.observed ctr + amount c.flags c.packet.bytes ctr else 0) +
      pendingTotal ctr (c.process cfg map).map + c.lost cfg map ctr =
    amount c.flags c.packet.bytes ctr + pendingTotal ctr map := by
  have heffect := c.process_effect cfg map
  generalize c.process cfg map = outcome at heffect
  cases heffect with
  | ignored hm hn => simp [hm.direction, hn] at hd
  | @born d' entry hm hn hb =>
    dsimp only
    rw [pendingTotal_born hm hb hc, Call.lost_of_missed cfg hm, observed_default]
    cases c.sampled with
    | true => simp
    | false => simp
  | @kept d' entry kept report hf hr hreport hobserved hk =>
    have hsum := pendingTotal_kept hf hk ctr
    dsimp only
    rw [Call.lost_of_found cfg hf, hr, ← hreport, hobserved]
    cases hrep : report.report with
    | true =>
      rw [hrep, if_pos rfl] at hsum
      simp only [Bool.false_eq_true, ↓reduceIte]
      omega
    | false =>
      rw [hrep] at hsum
      unfold DeferredCounter.add at hsum
      simp only [Bool.false_eq_true, ↓reduceIte] at hsum ⊢
      split
      · rw [if_pos (by assumption)] at hsum
        omega
      · rw [if_neg (by assumption)] at hsum
        omega
  | @removed d' entry report hf hr hreport hobserved =>
    have hsum := pendingTotal_removed hf ctr
    dsimp only
    rw [Call.lost_of_found cfg hf, hr, hreport, hobserved, if_pos rfl, if_pos rfl]
    omega

def World.runCalls (cfg : Config) (calls : List Call) : World :=
  Execution.run (fun w c => World.step cfg w (.packet c)) {} calls

/-- What a run has processed but neither reported nor pending. -/
def deficit (ctr : Counter) (w : World) : ℕ :=
  processedTotal ctr w.history - (reportedTotal ctr w.history + pendingTotal ctr w.map)

def Balanced (ctr : Counter) (w : World) : Prop :=
  reportedTotal ctr w.history + pendingTotal ctr w.map ≤ processedTotal ctr w.history

/-- One call moves the totals by what it processes, less what it loses. -/
theorem World.step_totals (cfg : Config) (w : World) (c : Call) {ctr : Counter}
    (hc : ∀ proto, ctr.counted proto = true) :
    ∃ n, processedTotal ctr (w.step cfg (.packet c)).history = n + processedTotal ctr w.history ∧
      reportedTotal ctr (w.step cfg (.packet c)).history + pendingTotal ctr (w.step cfg (.packet c)).map +
        c.lost cfg w.map ctr = n + (reportedTotal ctr w.history + pendingTotal ctr w.map) := by
  cases hd : c.direction w.map with
  | none =>
    have hlost : c.lost cfg w.map ctr = 0 := by simp only [Call.lost, hd]
    rw [World.step_of_direction_none cfg w c hd, hlost]
    exact ⟨0,(Nat.zero_add _).symm,(Nat.zero_add _).symm⟩
  | some d =>
    have hbalance := c.process_balance cfg w.map hd hc
    have hhistory : (w.step cfg (.packet c)).history = c.visit cfg w.map d :: w.history := by
      simp only [World.step, hd]
    refine ⟨amount c.flags c.packet.bytes ctr,?_,?_⟩
    · rw [hhistory]
      exact processedTotal_cons ctr _ _
    · rw [hhistory, reportedTotal_cons, World.step_packet_map]
      change (if (c.process cfg w.map).report.report then
        (c.process cfg w.map).report.observed ctr + amount c.flags c.packet.bytes ctr else 0) +
          reportedTotal ctr w.history + _ + _ = _
      omega

theorem Balanced.step (cfg : Config) {w : World} {ctr : Counter} (hc : ∀ proto, ctr.counted proto = true)
    (h : Balanced ctr w) (c : Call) :
    Balanced ctr (w.step cfg (.packet c)) ∧
      deficit ctr (w.step cfg (.packet c)) = deficit ctr w + c.lost cfg w.map ctr := by
  obtain ⟨n,hp,hr⟩ := World.step_totals cfg w c hc
  unfold Balanced deficit at *
  omega

/-- A removing call carries the pending values of both directions exactly if the opposite
one is zero, and the totals of a run are exact if and only if no call loses anything. -/
theorem totals_exact_iff (cfg : Config) (calls : List Call) (ctr : Counter)
    (hc : ∀ proto, ctr.counted proto = true) :
    (∀ (c : Call) (d : Direction) (entry : CtEntry),
      Found (World.runCalls cfg calls).map c.packet d entry →
      removes c.now (c.packet.connectionKey d) entry c.flags d = true →
      ((c.process cfg (World.runCalls cfg calls).map).report.observed ctr = entry.pending ctr ↔
        (entry.dir d.other).pending ctr = 0)) ∧
    (processedTotal ctr (World.runCalls cfg calls).history =
        reportedTotal ctr (World.runCalls cfg calls).history + pendingTotal ctr (World.runCalls cfg calls).map ↔
      Execution.Along (fun w c => World.step cfg w (.packet c)) (fun w c => c.lost cfg w.map ctr = 0) {} calls) := by
  have hstep := fun (w : World) (c : Call) (h : Balanced ctr w) => h.step cfg hc c
  have hstart : Balanced ctr {} := Nat.le_refl 0
  have hbalanced : Balanced ctr (World.runCalls cfg calls) :=
    Execution.invariant_of_step (fun w c h => (hstep w c h).1) hstart calls
  have hdeficit := Execution.eq_zero_iff_along (fun w c h => (hstep w c h).1) (fun w c h => (hstep w c h).2)
    hstart calls
  constructor
  · intro c d entry hf hr
    rw [Call.process_observed cfg hf, entry.pending_eq ctr d]
    omega
  · have hexact : processedTotal ctr (World.runCalls cfg calls).history =
        reportedTotal ctr (World.runCalls cfg calls).history + pendingTotal ctr (World.runCalls cfg calls).map ↔
        deficit ctr (World.runCalls cfg calls) = 0 := by
      unfold Balanced at hbalanced
      unfold deficit
      omega
    rw [hexact]
    exact hdeficit.trans ⟨fun h => h.2,fun h => ⟨rfl,h⟩⟩

/-- A client that resets its connection reports what it had pending. -/
theorem totals_exact_iff_client_reset :
    processedTotal .packets (World.runCalls sampleConfig (handshakeCalls ++
        [⟨1003,clientPacket ipprotoTcp TcpFlag.rst.mask 40,0,false⟩])).history =
      reportedTotal .packets (World.runCalls sampleConfig (handshakeCalls ++
        [⟨1003,clientPacket ipprotoTcp TcpFlag.rst.mask 40,0,false⟩])).history +
      pendingTotal .packets (World.runCalls sampleConfig (handshakeCalls ++
        [⟨1003,clientPacket ipprotoTcp TcpFlag.rst.mask 40,0,false⟩])).map := by
  exact (totals_exact_iff sampleConfig _ .packets (fun _ => rfl)).2.mpr (by decide)

/-- When the server resets the connection, what the client had pending is lost. -/
theorem server_reset_loses_pending :
    processedTotal .packets (World.runCalls sampleConfig (handshakeCalls ++
        [⟨1003,serverPacket ipprotoTcp TcpFlag.rst.mask 40,1,false⟩])).history = 5 ∧
      reportedTotal .packets (World.runCalls sampleConfig (handshakeCalls ++
        [⟨1003,serverPacket ipprotoTcp TcpFlag.rst.mask 40,1,false⟩])).history +
      pendingTotal .packets (World.runCalls sampleConfig (handshakeCalls ++
        [⟨1003,serverPacket ipprotoTcp TcpFlag.rst.mask 40,1,false⟩])).map = 4 := by
  decide

end Retina.Conntrack
