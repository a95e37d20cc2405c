import Retina.Conntrack.Cases
import Retina.Library.Execution

/-! # Runs of the data path and the life of an entry

Userspace garbage collection and the LRU policy of the map may remove an entry
between any two packets. A run records, for each key, the calls that were
processed on the entry under that key. Everything a run can do to one key is said
by `Lifetime`, and the properties of entries are inductions over it.
-/
namespace Retina.Conntrack

inductive Event where
  | packet (c : Call)
  | remove (key : CtV4Key)

/-- One call processed on an entry, with the entry that it found, if it did not create
one, and the packet as the call leaves it. -/
structure Visit where
  call : Call
  dir : Direction
  before : Option CtEntry
  packet : Packet
  report : PacketReport

def Visit.amount (v : Visit) (ctr : Counter) : ℕ := Conntrack.amount v.call.flags v.call.packet.bytes ctr

def Visit.pendingBefore (v : Visit) (ctr : Counter) : ℕ :=
  v.before.elim 0 fun entry => (entry.dir v.dir).pending ctr

/-- Whether the visit is reported: a created entry follows the sampling, and a packet of
a known connection is reported when it ends the connection or meets the conditions. -/
def Visit.delivers (cfg : Config) (key : CtV4Key) (v : Visit) : Bool :=
  match v.before with
  | none => v.call.sampled
  | some entry => removes v.call.now key entry v.call.flags v.dir ||
      reports cfg v.call.now key entry v.call.flags v.dir v.call.sampled

/-- The log of a key holds the visits of its entry, or of the last entry that was
there, with the newest visit first. The history holds the visits of all entries. -/
structure World where
  map : CtMap := ∅
  log : CtV4Key → List Visit := fun _ => []
  history : List Visit := []

def Call.direction (map : CtMap) (c : Call) : Option Direction :=
  if (map.lookup c.packet.key).isSome then some .tx
  else if (map.lookup (ctReverseKey c.packet.key)).isSome then some .rx
  else newConnectionDirection c.now c.packet

def Call.visit (cfg : Config) (map : CtMap) (c : Call) (d : Direction) : Visit :=
  ⟨c,d,map.lookup (c.packet.connectionKey d),(c.process cfg map).packet,(c.process cfg map).report⟩

def World.step (cfg : Config) (w : World) : Event → World
  | .packet c =>
    let map := (c.process cfg w.map).map
    match c.direction w.map with
    | none => { w with map := map }
    | some d =>
      let key := c.packet.connectionKey d
      let visit := c.visit cfg w.map d
      { map := map
        log := Function.update w.log key (visit :: if (w.map.lookup key).isSome then w.log key else [])
        history := visit :: w.history }
  | .remove key => { w with map := w.map.erase key }

def World.run (cfg : Config) (events : List Event) : World := Execution.run (World.step cfg) {} events

/-- What a run can have done to one key: the entry that it leaves there and the log. -/
inductive Lifetime (cfg : Config) (key : CtV4Key) : Option CtEntry → List Visit → Prop
  | unborn : Lifetime cfg key none []
  | born {log : List Visit} {v : Visit} {entry : CtEntry} (hl : Lifetime cfg key none log)
      (hkey : v.call.packet.connectionKey v.dir = key) (hbefore : v.before = none)
      (hnew : newConnectionDirection v.call.now v.call.packet = some v.dir)
      (hborn : Born cfg v.call v.dir entry)
      (hreport : v.report = { report := v.call.sampled })
      (hpacket : v.packet = labelPacket cfg v.call.packet (v.dir == .rx) entry) :
      Lifetime cfg key (some entry) [v]
  | kept {log : List Visit} {v : Visit} {entry kept : CtEntry} (hl : Lifetime cfg key (some entry) log)
      (hkey : v.call.packet.connectionKey v.dir = key) (hbefore : v.before = some entry)
      (hremoves : removes v.call.now key entry v.call.flags v.dir = false)
      (hreport : v.report.report = reports cfg v.call.now key entry v.call.flags v.dir v.call.sampled)
      (hobserved : ∀ ctr, v.report.observed ctr = (entry.dir v.dir).pending ctr)
      (hkept : Kept v.call.now key v.call.flags v.call.packet.bytes v.dir v.report.report
        (countEntry cfg entry v.dir v.call.packet.bytes) kept)
      (hpacket : v.packet = labelPacket cfg v.call.packet (v.dir == .rx)
        (countEntry cfg entry v.dir v.call.packet.bytes)) :
      Lifetime cfg key (some kept) (v :: log)
  | removed {log : List Visit} {v : Visit} {entry : CtEntry} (hl : Lifetime cfg key (some entry) log)
      (hkey : v.call.packet.connectionKey v.dir = key) (hbefore : v.before = some entry)
      (hremoves : removes v.call.now key entry v.call.flags v.dir = true)
      (hreport : v.report.report = true)
      (hobserved : ∀ ctr, v.report.observed ctr = (entry.dir v.dir).pending ctr)
      (hpacket : v.packet = labelPacket cfg v.call.packet (v.dir == .rx)
        (countEntry cfg entry v.dir v.call.packet.bytes)) :
      Lifetime cfg key none (v :: log)
  | evicted {log : List Visit} {entry : CtEntry} (hl : Lifetime cfg key (some entry) log) :
      Lifetime cfg key none log

theorem Found.direction {map : CtMap} {c : Call} {d : Direction} {entry : CtEntry}
    (h : Found map c.packet d entry) : c.direction map = some d := by
  have hl := h.lookup
  cases d with
  | tx =>
    change map.lookup c.packet.key = some entry at hl
    simp only [Call.direction, hl, Option.isSome_some, ↓reduceIte]
  | rx =>
    change map.lookup (ctReverseKey c.packet.key) = some entry at hl
    simp only [Call.direction, h.first rfl, hl, Option.isSome_some, Option.isSome_none, Bool.false_eq_true,
      ↓reduceIte]

theorem Missed.direction {map : CtMap} {c : Call} (h : Missed map c.packet) :
    c.direction map = newConnectionDirection c.now c.packet := by
  simp only [Call.direction, h.key, h.reverseKey, Option.isSome_none, Bool.false_eq_true, ↓reduceIte]

theorem World.step_packet_map (cfg : Config) (w : World) (c : Call) :
    (w.step cfg (.packet c)).map = (c.process cfg w.map).map := by
  unfold World.step
  dsimp only
  split <;> rfl

/-- A call that finds or creates an entry leaves every other key alone. -/
theorem World.step_of_direction (cfg : Config) (w : World) (c : Call) {d : Direction}
    (hd : c.direction w.map = some d) {key : CtV4Key} (hne : key ≠ c.packet.connectionKey d) :
    (w.step cfg (.packet c)).map.lookup key = w.map.lookup key ∧
      (w.step cfg (.packet c)).log key = w.log key := by
  have heffect := c.process_effect cfg w.map
  simp only [World.step, hd, Function.update_of_ne hne, and_true]
  generalize c.process cfg w.map = outcome at heffect
  cases heffect with
  | ignored hm hn => rfl
  | born hm hn hb =>
    rw [hm.direction, hn, Option.some.injEq] at hd
    exact Finmap.lookup_insert_of_ne _ (hd ▸ hne)
  | kept hf hr hreport hobserved hk =>
    rw [hf.direction, Option.some.injEq] at hd
    exact Finmap.lookup_insert_of_ne _ (hd ▸ hne)
  | removed hf hr hreport hobserved =>
    rw [hf.direction, Option.some.injEq] at hd
    exact Finmap.lookup_erase_ne (hd ▸ hne)

/-- What a call does to the key on which it is processed. -/
theorem World.step_lifetime_self (cfg : Config) (w : World) (c : Call) {d : Direction}
    (hd : c.direction w.map = some d)
    (h : Lifetime cfg (c.packet.connectionKey d) (w.map.lookup (c.packet.connectionKey d))
      (w.log (c.packet.connectionKey d))) :
    Lifetime cfg (c.packet.connectionKey d) ((w.step cfg (.packet c)).map.lookup (c.packet.connectionKey d))
      ((w.step cfg (.packet c)).log (c.packet.connectionKey d)) := by
  have heffect := c.process_effect cfg w.map
  simp only [World.step, hd, Call.visit, Function.update_self]
  generalize c.process cfg w.map = outcome at heffect
  cases heffect with
  | ignored hm hn => simp [hm.direction, hn] at hd
  | @born d' entry hm hn hb =>
    obtain rfl : d' = d := by simpa [hm.direction, hn] using hd
    simp only [hm.lookup d', Finmap.lookup_insert, Option.isSome_none, Bool.false_eq_true, ↓reduceIte]
    rw [hm.lookup d'] at h
    exact .born (v := ⟨c,d',none,_,_⟩) h rfl rfl hn hb rfl rfl
  | @kept d' entry kept report hf hr hreport hobserved hkept =>
    obtain rfl : d' = d := by simpa [hf.direction] using hd
    simp only [hf.lookup, Finmap.lookup_insert, Option.isSome_some, ↓reduceIte]
    rw [hf.lookup] at h
    exact .kept (v := ⟨c,d',some entry,_,report⟩) h rfl rfl hr hreport hobserved hkept rfl
  | @removed d' entry report hf hr hreport hobserved =>
    obtain rfl : d' = d := by simpa [hf.direction] using hd
    simp only [hf.lookup, Finmap.lookup_erase, Option.isSome_some, ↓reduceIte]
    rw [hf.lookup] at h
    exact .removed (v := ⟨c,d',some entry,_,report⟩) h rfl rfl hr hreport hobserved rfl

theorem World.step_kept (cfg : Config) (w : World) (c : Call) {d : Direction} {entry : CtEntry}
    (hf : Found w.map c.packet d entry)
    (hr : removes c.now (c.packet.connectionKey d) entry c.flags d = false) :
    ∃ kept, (w.step cfg (.packet c)).map.lookup (c.packet.connectionKey d) = some kept ∧
      (w.step cfg (.packet c)).log (c.packet.connectionKey d) =
        c.visit cfg w.map d :: w.log (c.packet.connectionKey d) ∧
      (c.visit cfg w.map d).report.report =
        reports cfg c.now (c.packet.connectionKey d) entry c.flags d c.sampled ∧
      Kept c.now (c.packet.connectionKey d) c.flags c.packet.bytes d (c.visit cfg w.map d).report.report
        (countEntry cfg entry d c.packet.bytes) kept := by
  obtain ⟨kept,hmap,hreport,hk⟩ := Call.process_of_not_removes cfg hf hr
  refine ⟨kept,?_,?_,hreport,hk⟩
  · rw [World.step_packet_map, hmap, Finmap.lookup_insert]
  · simp only [World.step, hf.direction, hf.lookup, Function.update_self, Option.isSome_some, ↓reduceIte]

theorem World.step_of_direction_none (cfg : Config) (w : World) (c : Call) (hd : c.direction w.map = none) :
    w.step cfg (.packet c) = w := by
  have heffect := c.process_effect cfg w.map
  simp only [World.step, hd]
  generalize c.process cfg w.map = outcome at heffect
  cases heffect with
  | ignored hm hn => rfl
  | born hm hn hb => simp [hm.direction, hn] at hd
  | kept hf hr hreport hobserved hk => simp [hf.direction] at hd
  | removed hf hr hreport hobserved => simp [hf.direction] at hd

theorem World.step_lifetime (cfg : Config) (w : World) (e : Event)
    (h : ∀ key, Lifetime cfg key (w.map.lookup key) (w.log key)) (key : CtV4Key) :
    Lifetime cfg key ((w.step cfg e).map.lookup key) ((w.step cfg e).log key) := by
  cases e with
  | remove gone =>
    have hold := h key
    by_cases hk : key = gone
    · subst hk
      simp only [World.step, Finmap.lookup_erase]
      cases hl : w.map.lookup key with
      | none => rwa [hl] at hold
      | some entry => exact .evicted (hl ▸ hold)
    · simp only [World.step, Finmap.lookup_erase_ne hk]
      exact hold
  | packet c =>
    cases hd : c.direction w.map with
    | none =>
      rw [World.step_of_direction_none cfg w c hd]
      exact h key
    | some d =>
      by_cases hk : key = c.packet.connectionKey d
      · subst hk
        exact World.step_lifetime_self cfg w c hd (h _)
      · obtain ⟨hmap,hlog⟩ := World.step_of_direction cfg w c hd hk
        rw [hmap, hlog]
        exact h key

theorem World.run_lifetime (cfg : Config) (events : List Event) (key : CtV4Key) :
    Lifetime cfg key ((World.run cfg events).map.lookup key) ((World.run cfg events).log key) := by
  have h := Execution.invariant_of_step
    (I := fun w : World => ∀ key, Lifetime cfg key (w.map.lookup key) (w.log key))
    (World.step_lifetime cfg) (s := {}) (fun _ => .unborn) events
  exact h key

structure Logged (cfg : Config) (key : CtV4Key) (v : Visit) : Prop where
  connectionKey : v.call.packet.connectionKey v.dir = key
  observed : ∀ ctr, v.report.observed ctr = v.pendingBefore ctr
  delivers : v.report.report = v.delivers cfg key
  packet : ∃ isReply entry, v.packet = labelPacket cfg v.call.packet isReply entry

theorem logged_of_found {cfg : Config} {key : CtV4Key} {v : Visit} {entry : CtEntry}
    (hkey : v.call.packet.connectionKey v.dir = key) (hbefore : v.before = some entry)
    (hreport : v.report.report = (removes v.call.now key entry v.call.flags v.dir ||
      reports cfg v.call.now key entry v.call.flags v.dir v.call.sampled))
    (hobserved : ∀ ctr, v.report.observed ctr = (entry.dir v.dir).pending ctr)
    (hpacket : v.packet = labelPacket cfg v.call.packet (v.dir == .rx)
      (countEntry cfg entry v.dir v.call.packet.bytes)) : Logged cfg key v := by
  refine ⟨hkey,?_,?_,_,_,hpacket⟩
  · intro ctr
    rw [hobserved, Visit.pendingBefore, hbefore]
    rfl
  · rw [hreport, Visit.delivers, hbefore]

theorem Lifetime.logged {cfg : Config} {key : CtV4Key} {entry : Option CtEntry} {log : List Visit}
    (h : Lifetime cfg key entry log) : ∀ v ∈ log, Logged cfg key v := by
  induction h with
  | unborn => exact fun v hv => absurd hv List.not_mem_nil
  | born hl hkey hbefore hnew hborn hreport hpacket ih =>
    intro u hu
    obtain rfl := List.mem_singleton.mp hu
    refine ⟨hkey,?_,?_,_,_,hpacket⟩
    · intro ctr
      rw [hreport, observed_default, Visit.pendingBefore, hbefore]
      rfl
    · rw [hreport, Visit.delivers, hbefore]
  | kept hl hkey hbefore hremoves hreport hobserved hkept hpacket ih =>
    intro u hu
    rcases List.mem_cons.mp hu with rfl | hu
    · exact logged_of_found hkey hbefore (by rw [hreport, hremoves, Bool.false_or]) hobserved hpacket
    · exact ih u hu
  | removed hl hkey hbefore hremoves hreport hobserved hpacket ih =>
    intro u hu
    rcases List.mem_cons.mp hu with rfl | hu
    · exact logged_of_found hkey hbefore (by rw [hreport, hremoves, Bool.true_or]) hobserved hpacket
    · exact ih u hu
  | evicted hl ih => exact ih

/-! ## A sample connection -/

def clientPacket (proto : UInt8) (flags : UInt16) (bytes : UInt32) : Packet where
  bytes := bytes
  srcIp := 1
  dstIp := 2
  srcPort := 40000
  dstPort := 80
  proto := proto
  flags := flags

def serverPacket (proto : UInt8) (flags : UInt16) (bytes : UInt32) : Packet where
  bytes := bytes
  srcIp := 2
  dstIp := 1
  srcPort := 80
  dstPort := 40000
  proto := proto
  flags := flags

def sampleConfig : Config where
  enableConntrackMetrics := true
  ctReportInterval := 30

def tcpKey : CtV4Key := (clientPacket ipprotoTcp 0 0).key
def udpKey : CtV4Key := (clientPacket ipprotoUdp 0 0).key

def handshakeCalls : List Call :=
  [⟨1000,clientPacket ipprotoTcp TcpFlag.syn.mask 60,0,false⟩,
    ⟨1000,serverPacket ipprotoTcp (TcpFlag.syn.mask ||| TcpFlag.ack.mask) 60,1,false⟩,
    ⟨1001,clientPacket ipprotoTcp TcpFlag.ack.mask 52,0,false⟩,
    ⟨1002,clientPacket ipprotoTcp (TcpFlag.ack.mask ||| TcpFlag.psh.mask) 100,0,false⟩]

def handshake : List Event := handshakeCalls.map .packet

end Retina.Conntrack
