import Retina.LinuxUtil.Netstat
import Retina.Library.Execution

/-! # Sockets by state

`readAndUpdate` of `pkg/plugin/linuxutil/netstat_stats_linux.go`. Each tick has a reader of its own, which sees
one table of sockets, while the gauges stay from tick to tick. A gauge is modelled by the number it is
set to, before the conversion to `float64`.
-/
namespace Retina.LinuxUtil

/-- What is used of other packages. The states of sockets are told apart by their texts. -/
structure NetstatLibrary (State : Type) where
  fields : Text → List Text
  parseUint : Text → Option UInt64
  isAddrPort : String → Bool
  listen : State
  string : State → String
  string_injective : Function.Injective string

structure SockTabEntry (State : Type) where
  state : State
  remoteAddr : String

/-- What one tick finds: the answers of `os.ReadFile`, `UDPSocks` and `TCPSocks`. -/
structure Tick (State : Type) where
  file : Except String Text
  udp : Except String (List (SockTabEntry State))
  tcp : Except String (List (SockTabEntry State))

structure Gauges where
  tcpConnectionStats : ExtStats := ∅
  ipConnectionStats : ExtStats := ∅
  tcpState : Finmap (fun _ : String => ℕ) := ∅
  tcpConnectionRemote : ℕ := 0
  udpActive : ℕ := 0
deriving DecidableEq

def increment (counts : Finmap (fun _ : String => ℕ)) (key : String) : Finmap (fun _ : String => ℕ) :=
  counts.insert key ((counts.lookup key).getD 0 + 1)

section Reader
variable {State : Type} [DecidableEq State] (lib : NetstatLibrary State)

omit [DecidableEq State] in
def processSocks (socks : List (SockTabEntry State)) : SocketStats where
  totalActiveSockets := socks.length
  socketByState := socks.foldl (fun counts e => increment counts (lib.string e.state)) ∅
  socketByRemoteAddr := socks.foldl (fun counts e => increment counts e.remoteAddr) ∅

def accepts (opts : NetstatOpts) (e : SockTabEntry State) : Bool := !opts.listenSock || e.state = lib.listen

def readSockStats (opts : NetstatOpts) (connStats : ConnectionStats) (tick : Tick State) :
    ConnectionStats × Option String :=
  match tick.udp with
  | .error err => (connStats,some err)
  | .ok udp =>
    let connStats := { connStats with udpSockets := processSocks lib (udp.filter (accepts lib opts)) }
    match tick.tcp with
    | .error err => (connStats,some err)
    | .ok tcp => ({ connStats with tcpSockets := processSocks lib (tcp.filter (accepts lib opts)) },none)

/-- A loop over a map that sets one gauge for each entry is a union, where the map comes first. -/
def updateMetrics (connStats : ConnectionStats) (g : Gauges) : Gauges where
  tcpConnectionStats := connStats.mpTcpExt ∪ (connStats.tcpExt ∪ g.tcpConnectionStats)
  ipConnectionStats := connStats.ipExt ∪ g.ipConnectionStats
  tcpState := connStats.tcpSockets.socketByState ∪ g.tcpState
  tcpConnectionRemote := (connStats.tcpSockets.socketByRemoteAddr.entries.map fun e =>
    if lib.isAddrPort e.1 then e.2 else 0).sum
  udpActive := connStats.udpSockets.totalActiveSockets

def readAndUpdate (opts : NetstatOpts) (g : Gauges) (tick : Tick State) : Except OutOfRange (Gauges × Option String) := do
  let g := { g with tcpConnectionRemote := 0 }
  match ← readConnectionStats lib.fields lib.parseUint opts {} tick.file with
  | (_,some err) => return (g,some err)
  | (connStats,none) =>
    match readSockStats lib opts connStats tick with
    | (_,some err) => return (g,some err)
    | (connStats,none) => return (updateMetrics lib connStats g,none)

def runOpts : NetstatOpts := ⟨true,false,false⟩

/-- After an access out of range nothing is updated any more. -/
def step (g : Gauges) (tick : Tick State) : Gauges :=
  match readAndUpdate lib runOpts g tick with
  | .ok (g',_) => g'
  | .error _ => g

/-- The gauge of a state. A state that was never seen has none, which reads as zero. -/
def Gauges.ofState (g : Gauges) (s : State) : ℕ := (g.tcpState.lookup (lib.string s)).getD 0

def Tick.tcpSocks (tick : Tick State) : List (SockTabEntry State) := tick.tcp.toOption.getD []

def Tick.inState (tick : Tick State) (s : State) : ℕ := tick.tcpSocks.countP (·.state = s)

def Succeeds (g : Gauges) (tick : Tick State) : Prop := ∃ g', readAndUpdate lib runOpts g tick = .ok (g',none)

/-! ## One tick -/

omit [DecidableEq State] in
theorem lookup_foldl_increment (key : SockTabEntry State → String) (socks : List (SockTabEntry State))
    (counts : Finmap (fun _ : String => ℕ)) (k : String) :
    (socks.foldl (fun counts e => increment counts (key e)) counts).lookup k =
      if ∃ e ∈ socks, key e = k then some ((counts.lookup k).getD 0 + socks.countP (key · = k)) else counts.lookup k := by
  induction socks generalizing counts with
  | nil => simp
  | cons e socks ih =>
    rw [List.foldl_cons, ih, increment, FiniteMap.lookup_insert_eq_ite]
    by_cases hk : key e = k
    · subst hk
      by_cases hrest : ∃ e' ∈ socks, key e' = key e
      · simp [hrest]
        omega
      · have hzero : socks.countP (key · = key e) = 0 := by
          simpa [List.countP_eq_zero] using hrest
        simp [hrest, hzero]
    · have hk' : k ≠ key e := fun h => hk h.symm
      simp [hk, hk']

/-- A successful tick has read the table of TCP sockets and sets the gauges of the states in it. -/
theorem tcpState_of_readAndUpdate {g g' : Gauges} {tick : Tick State}
    (h : readAndUpdate lib runOpts g tick = .ok (g',none)) :
    g'.tcpState = (processSocks lib tick.tcpSocks).socketByState ∪ g.tcpState := by
  have haccepts : ∀ socks : List (SockTabEntry State), socks.filter (accepts lib runOpts) = socks := fun socks =>
    List.filter_eq_self.mpr fun e _ => rfl
  simp only [readAndUpdate, bind, Except.bind] at h
  cases hread : readConnectionStats lib.fields lib.parseUint runOpts {} tick.file with
  | error err => simp [hread] at h
  | ok read =>
    obtain ⟨connStats,_ | err⟩ := read
    · cases hudp : tick.udp with
      | error err => simp [hread, readSockStats, hudp, pure, Except.pure] at h
      | ok udp =>
        cases htcp : tick.tcp with
        | error err => simp [hread, readSockStats, hudp, htcp, pure, Except.pure] at h
        | ok tcp =>
          simp only [hread, readSockStats, hudp, htcp, haccepts, pure, Except.pure, Except.ok.injEq, Prod.mk.injEq,
            and_true] at h
          rw [← h, Tick.tcpSocks, htcp]
          rfl
    · simp [hread, pure, Except.pure] at h

omit [DecidableEq State] in
theorem lookup_socketByState (socks : List (SockTabEntry State)) (s : State) [DecidableEq State] :
    (processSocks lib socks).socketByState.lookup (lib.string s) =
      if ∃ e ∈ socks, e.state = s then some (socks.countP (·.state = s)) else none := by
  simp only [processSocks, lookup_foldl_increment, lib.string_injective.eq_iff, Finmap.lookup_empty, Option.getD_none,
    Nat.zero_add]

/-- The gauges of the states in the table are set and the others are left. -/
theorem ofState_step {g : Gauges} {tick : Tick State} (h : Succeeds lib g tick) (s : State) :
    (step lib g tick).ofState lib s = if ∃ e ∈ tick.tcpSocks, e.state = s then tick.inState s else g.ofState lib s := by
  obtain ⟨g',hg⟩ := h
  have hlookup := lookup_socketByState lib tick.tcpSocks s
  rw [step, hg]
  simp only [Gauges.ofState, tcpState_of_readAndUpdate lib hg]
  split
  · next hs =>
    rw [if_pos hs] at hlookup
    rw [Finmap.lookup_union_left (Finmap.mem_of_lookup_eq_some hlookup), hlookup]
    rfl
  · next hs =>
    rw [if_neg hs] at hlookup
    rw [Finmap.lookup_union_right (Finmap.lookup_eq_none.mp hlookup)]

/-! ## Tick after tick -/

def NoStateVanishes (g : Gauges) (tick : Tick State) : Prop :=
  ∀ s, g.ofState lib s ≠ 0 → ∃ e ∈ tick.tcpSocks, e.state = s

def ShowsPresent (ticks : List (Tick State)) : Prop :=
  ∀ earlier tick, ticks = earlier ++ [tick] →
    ∀ s, (Execution.run (step lib) {} ticks).ofState lib s = tick.inState s

theorem Tick.inState_eq_zero {tick : Tick State} {s : State} (h : ¬∃ e ∈ tick.tcpSocks, e.state = s) :
    tick.inState s = 0 := by
  simpa [Tick.inState, List.countP_eq_zero] using h

theorem ofState_step_eq_inState_iff {g : Gauges} {tick : Tick State} (h : Succeeds lib g tick) :
    (∀ s, (step lib g tick).ofState lib s = tick.inState s) ↔ NoStateVanishes lib g tick := by
  refine forall_congr' fun s => ?_
  rw [ofState_step lib h]
  by_cases hs : ∃ e ∈ tick.tcpSocks, e.state = s
  · simp [hs]
  · rw [if_neg hs, Tick.inState_eq_zero hs]
    simp only [hs, imp_false, not_not]

/-- The gauges show the present after every tick exactly if no tick finds that the last socket of a state is gone. -/
theorem state_gauges_show_present_iff (ticks : List (Tick State))
    (h : Execution.Along (step lib) (Succeeds lib) {} ticks) :
    (∀ earlier, earlier <+: ticks → ShowsPresent lib earlier) ↔
      Execution.Along (step lib) (NoStateVanishes lib) {} ticks := by
  apply Execution.forall_prefix_iff_along (D := Succeeds lib) (C := NoStateVanishes lib) ?_ ?_ h
  · rintro ticks hD hC earlier tick rfl
    rw [Execution.along_append] at hD hC
    rw [Execution.run_append]
    exact (ofState_step_eq_inState_iff lib hD.2.1).mpr hC.2.1
  · intro earlier tick hD hC hsucc hvanish hshows
    have hpresent := hshows earlier tick rfl
    rw [Execution.run_append] at hpresent
    exact hvanish ((ofState_step_eq_inState_iff lib hsucc).mp hpresent)

end Reader

/-! ## A connection that goes away -/

inductive SkState where
  | established | synSent | synRecv | finWait1 | finWait2 | timeWait | close | closeWait | lastAck | listen | closing
deriving DecidableEq

def SkState.text : SkState → String
  | established => "ESTABLISHED"
  | synSent => "SYN_SENT"
  | synRecv => "SYN_RECV"
  | finWait1 => "FIN_WAIT1"
  | finWait2 => "FIN_WAIT2"
  | timeWait => "TIME_WAIT"
  | close => ""
  | closeWait => "CLOSE_WAIT"
  | lastAck => "LAST_ACK"
  | listen => "LISTEN"
  | closing => "CLOSING"

theorem SkState.text_injective : Function.Injective SkState.text := by
  intro s t h
  cases s <;> cases t <;> first | rfl | simp [SkState.text] at h

def sampleLibrary : NetstatLibrary SkState where
  fields := asciiFields
  parseUint field := if field = ascii "3" then some 3 else none
  isAddrPort addr := addr = "10.0.0.1:80"
  listen := .listen
  string := SkState.text
  string_injective := SkState.text_injective

def tableOf (states : List SkState) : Tick SkState :=
  ⟨.ok [],.ok [],.ok (states.map fun state => ⟨state,"10.0.0.1:80"⟩)⟩

theorem state_gauge_stays :
    Execution.Along (step sampleLibrary) (Succeeds sampleLibrary) {} [tableOf [.timeWait],tableOf []] ∧
      (Execution.run (step sampleLibrary) {} [tableOf [.timeWait],tableOf []]).ofState sampleLibrary .timeWait = 1 ∧
      (tableOf []).inState .timeWait = 0 := by
  refine ⟨⟨⟨_,rfl⟩,⟨_,rfl⟩,trivial⟩,?_,rfl⟩
  decide +kernel

/-- A second socket of a state comes and goes. -/
theorem state_gauges_show_present_listening :
    Execution.Along (step sampleLibrary) (NoStateVanishes sampleLibrary) {}
        [tableOf [.listen],tableOf [.listen,.listen],tableOf [.listen]] ∧
      ShowsPresent sampleLibrary [tableOf [.listen],tableOf [.listen,.listen],tableOf [.listen]] := by
  have hkeeps : Execution.Along (step sampleLibrary) (NoStateVanishes sampleLibrary) {}
      [tableOf [.listen],tableOf [.listen,.listen],tableOf [.listen]] := by
    refine ⟨?_,?_,?_,trivial⟩ <;> intro s <;> cases s <;> decide +kernel
  have hsucc : Execution.Along (step sampleLibrary) (Succeeds sampleLibrary) {}
      [tableOf [.listen],tableOf [.listen,.listen],tableOf [.listen]] := ⟨⟨_,rfl⟩,⟨_,rfl⟩,⟨_,rfl⟩,trivial⟩
  exact ⟨hkeeps,(state_gauges_show_present_iff sampleLibrary _ hsucc).mpr hkeeps _ List.prefix_rfl⟩

end Retina.LinuxUtil
