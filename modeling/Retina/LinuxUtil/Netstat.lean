import Retina.Library.FiniteMap

/-! # Reading the netstat file

`readConnectionStats` of `pkg/plugin/linuxutil/netstat_stats_linux.go`. The file is a byte string, and its
lines are taken two by two. An access to a slice beyond its length stops the program, so a function that
reads slices by index returns an `Except`. The functions `strings.Fields` and `strconv.ParseUint` are
parameters.
-/
namespace Retina.LinuxUtil

abbrev Text := List UInt8

def ascii (literal : String) : Text := literal.toList.map fun c => UInt8.ofNat c.toNat

structure OutOfRange where
  index : ℕ
  length : ℕ
deriving DecidableEq

def index {α : Type*} (xs : List α) (i : ℕ) : Except OutOfRange α :=
  match xs[i]? with
  | some x => .ok x
  | none => .error ⟨i,xs.length⟩

structure NetstatOpts where
  curatedKeys : Bool
  addZeroVal : Bool
  listenSock : Bool

abbrev ExtStats := Finmap (fun _ : Text => UInt64)

structure SocketStats where
  totalActiveSockets : ℕ := 0
  socketByState : Finmap (fun _ : String => ℕ) := ∅
  socketByRemoteAddr : Finmap (fun _ : String => ℕ) := ∅
deriving DecidableEq

structure ConnectionStats where
  tcpExt : ExtStats := ∅
  ipExt : ExtStats := ∅
  mpTcpExt : ExtStats := ∅
  udpSockets : SocketStats := {}
  tcpSockets : SocketStats := {}
deriving DecidableEq

def netstatCuratedKeys : List Text :=
  ["ListenDrops","LockDroppedIcmps","PFMemallocDrop","TCPBacklogDrop","TCPDeferAcceptDrop","TCPMinTTLDrop","TCPRcvQDrop",
    "TCPReqQFullDrop","TCPZeroWindowDrop","InCsumErrors","DataCsumErr","AddAddrDrop","RmAddrDrop","TCPTimeouts",
    "TCPLossProbes","TCPLostRetransmit"].map ascii

/-- `strings.Split` at newlines. There is always a line, which may be empty. -/
def splitLines (data : Text) : List Text := data.splitOn 10

section Reader
variable (fields : Text → List Text) (parseUint : Text → Option UInt64) (opts : NetstatOpts)

def processConnField (f1 f2 : List Text) (stats : ExtStats) (i : ℕ) : Except OutOfRange ExtStats := do
  match parseUint (← index f2 i) with
  | none => return stats
  | some num =>
    let header ← index f1 i
    if opts.curatedKeys && !netstatCuratedKeys.contains header then return stats
    else if num = 0 && !opts.addZeroVal then return stats
    else return stats.insert header num

def processConnFields (f1 f2 : List Text) : Except OutOfRange ExtStats :=
  (List.range' 1 (f1.length - 1)).foldlM (processConnField parseUint opts f1 f2) ∅

def readPair (lines : List Text) (connStats : ConnectionStats) (i : ℕ) : Except OutOfRange ConnectionStats := do
  let headers := fields (← index lines i)
  if headers.length < 2 then return connStats
  let values := fields (← index lines (i + 1))
  if values.length < 2 then return connStats
  let header ← index headers 0
  let value ← index values 0
  if header ≠ value then return connStats
  if headers.length ≠ values.length then return connStats
  if (ascii "TcpExt").isPrefixOf header && (ascii "TcpExt").isPrefixOf value then
    return { connStats with tcpExt := ← processConnFields parseUint opts headers values }
  else if (ascii "IpExt").isPrefixOf header && (ascii "IpExt").isPrefixOf value then
    return { connStats with ipExt := ← processConnFields parseUint opts headers values }
  else if (ascii "MPTcpExt").isPrefixOf header && (ascii "MPTcpExt").isPrefixOf value then
    return { connStats with mpTcpExt := ← processConnFields parseUint opts headers values }
  else return connStats

def pairStarts (count : ℕ) : List ℕ := (List.range ((count + 1) / 2)).map (2 * ·)

def dropTrailing (lines : List Text) : Except OutOfRange (List Text) := do
  let last := lines.length - 1
  if (← index lines last) = [] then return lines.take last else return lines

/-- What is read, and the error that is returned. The file is the answer of `os.ReadFile`. -/
def readConnectionStats (connStats : ConnectionStats) (file : Except String Text) :
    Except OutOfRange (ConnectionStats × Option String) :=
  match file with
  | .error err => return (connStats,some err)
  | .ok data => do
    let lines ← dropTrailing (splitLines data)
    if lines.length = 1 then return (connStats,some "invalid netstat file")
    else return (← (pairStarts lines.length).foldlM (readPair fields parseUint opts lines) connStats,none)

end Reader

/-! ## Indices in range -/

theorem index_ok_iff {α : Type*} (xs : List α) (i : ℕ) : (∃ x, index xs i = .ok x) ↔ i < xs.length := by
  rw [index]
  by_cases h : i < xs.length <;> simp [h]

theorem index_of_lt {α : Type*} {xs : List α} {i : ℕ} (h : i < xs.length) : index xs i = .ok (xs.get ⟨i,h⟩) := by
  simp [index, h]

/-- A loop stays in range if every round does, where a round does not depend on what was read before. -/
theorem foldlM_ok_iff {ε σ τ : Type*} {body : σ → τ → Except ε σ} {P : τ → Prop} {xs : List τ}
    (hbody : ∀ s, ∀ x ∈ xs, (∃ s', body s x = .ok s') ↔ P x) (s : σ) :
    (∃ s', xs.foldlM body s = .ok s') ↔ ∀ x ∈ xs, P x := by
  induction xs generalizing s with
  | nil => simp [pure, Except.pure]
  | cons x xs ih =>
    rw [List.forall_mem_cons, ← hbody s x List.mem_cons_self, List.foldlM_cons]
    cases hx : body s x with
    | error err => simp [bind, Except.bind]
    | ok s' => simpa [bind, Except.bind] using ih (fun s x hx => hbody s x (List.mem_cons_of_mem _ hx)) s'

section Reader
variable (fields : Text → List Text) (parseUint : Text → Option UInt64) (opts : NetstatOpts)

theorem processConnField_ok {f1 f2 : List Text} {i : ℕ} (h1 : i < f1.length) (h2 : i < f2.length) (stats : ExtStats) :
    ∃ stats', processConnField parseUint opts f1 f2 stats i = .ok stats' := by
  simp only [processConnField, index_of_lt h1, index_of_lt h2, bind, Except.bind]
  split
  · exact ⟨_,rfl⟩
  · split
    · exact ⟨_,rfl⟩
    · split <;> exact ⟨_,rfl⟩

/-- The fields are as many as the headers, so that no index is out of range. -/
theorem processConnFields_ok {f1 f2 : List Text} (h : f1.length = f2.length) :
    ∃ stats, processConnFields parseUint opts f1 f2 = .ok stats := by
  rw [processConnFields, foldlM_ok_iff (P := fun _ => True)]
  · exact fun _ _ => trivial
  · intro stats i hi
    rw [List.mem_range'_1] at hi
    exact iff_of_true (processConnField_ok parseUint opts (by omega) (by omega) stats) trivial

theorem readPair_ok_iff {lines : List Text} {i : ℕ} (hi : i < lines.length) (connStats : ConnectionStats) :
    (∃ connStats', readPair fields parseUint opts lines connStats i = .ok connStats') ↔
      (2 ≤ (fields (lines.get ⟨i,hi⟩)).length → i + 1 < lines.length) := by
  simp only [readPair, index_of_lt hi, bind, Except.bind]
  generalize fields (lines.get ⟨i,hi⟩) = headers
  by_cases hheaders : headers.length < 2
  · simp [hheaders, pure, Except.pure]
  by_cases hnext : i + 1 < lines.length
  · -- The second line is there, and everything after that is about fields.
    simp only [if_neg hheaders, index_of_lt hnext, hnext, imp_true_iff, iff_true]
    generalize fields (lines.get ⟨i + 1,hnext⟩) = values
    by_cases hvalues : values.length < 2
    · exact ⟨connStats,by simp [hvalues, pure, Except.pure]⟩
    simp only [if_neg hvalues, index_of_lt (by omega : 0 < headers.length), index_of_lt (by omega : 0 < values.length)]
    by_cases hlength : headers.length = values.length
    · obtain ⟨stats,hstats⟩ := processConnFields_ok parseUint opts hlength
      simp only [hstats]
      split
      · exact ⟨_,rfl⟩
      · split
        · exact ⟨_,rfl⟩
        · split
          · exact ⟨_,rfl⟩
          · split
            · exact ⟨_,rfl⟩
            · split <;> exact ⟨_,rfl⟩
    · simp only [ne_eq, hlength, not_false_eq_true, if_true]
      split <;> exact ⟨_,rfl⟩
  · have hnone : ¬∃ line, index lines (i + 1) = .ok line := by rwa [index_ok_iff]
    cases hindex : index lines (i + 1) with
    | ok line => exact absurd ⟨line,hindex⟩ hnone
    | error err => simp [hheaders, hnext, not_lt.mp hheaders]

end Reader

/-! ## Lines in pairs -/

def statLines (data : Text) : List Text :=
  if (splitLines data).getLast? = some [] then (splitLines data).dropLast else splitLines data

theorem dropTrailing_splitLines (data : Text) : dropTrailing (splitLines data) = .ok (statLines data) := by
  have hne : splitLines data ≠ [] := List.splitOn_ne_nil _ _
  have hpos : 0 < (splitLines data).length := List.length_pos_iff.mpr hne
  have hlast : (splitLines data).get ⟨(splitLines data).length - 1,by omega⟩ = (splitLines data).getLast hne := by
    rw [List.getLast_eq_getElem]
    rfl
  rw [dropTrailing, statLines, List.getLast?_eq_getLast_of_ne_nil hne, List.dropLast_eq_take]
  simp only [index_of_lt (by omega : (splitLines data).length - 1 < (splitLines data).length), bind, Except.bind, hlast,
    Option.some.injEq]
  split <;> rfl

theorem mem_pairStarts {count i : ℕ} : i ∈ pairStarts count ↔ Even i ∧ i < count := by
  simp only [pairStarts, List.mem_map, List.mem_range]
  constructor
  · rintro ⟨k,hk,rfl⟩
    exact ⟨even_two_mul k,by omega⟩
  · rintro ⟨⟨k,rfl⟩,hi⟩
    exact ⟨k,by omega,by omega⟩

/-- No line lacks the partner that it asks for: the lines are even in number, or there is only one, which is an error,
or the last one has no field after its signifier. -/
def PairedLines (fields : Text → List Text) (data : Text) : Prop :=
  Even (statLines data).length ∨ (statLines data).length = 1 ∨
    ∀ line ∈ (statLines data).getLast?, (fields line).length < 2

instance decidablePairedLines (fields : Text → List Text) (data : Text) : Decidable (PairedLines fields data) :=
  inferInstanceAs (Decidable (_ ∨ _ ∨ _))

/-- Only the last line can be the first one of a pair and have no line after it. -/
theorem forall_pairStarts_iff (lines : List Text) (p : Text → Prop) :
    (∀ i ∈ pairStarts lines.length, ∀ line ∈ lines[i]?, p line → i + 1 < lines.length) ↔
      Even lines.length ∨ ∀ line ∈ lines.getLast?, ¬p line := by
  rw [List.getLast?_eq_getElem?]
  constructor
  · intro h
    by_contra hodd
    push Not at hodd
    obtain ⟨hcount,line,hline,hp⟩ := hodd
    obtain ⟨hlt,-⟩ := List.getElem?_eq_some_iff.mp hline
    have heven : Even (lines.length - 1) := by
      rw [Nat.not_even_iff_odd] at hcount
      exact Nat.Odd.sub_odd hcount odd_one
    have hnext := h (lines.length - 1) (mem_pairStarts.mpr ⟨heven,hlt⟩) line hline hp
    omega
  · intro h i hi line hline hp
    obtain ⟨heven,hlt⟩ := mem_pairStarts.mp hi
    by_contra hlast
    obtain rfl : i = lines.length - 1 := by omega
    rcases h with hcount | hshort
    · have hodd : Odd lines.length := by
        have := heven.add_one
        rwa [Nat.sub_add_cancel (by omega)] at this
      exact (Nat.not_even_iff_odd.mpr hodd) hcount
    · exact hshort line hline hp

section Reader
variable (fields : Text → List Text) (parseUint : Text → Option UInt64) (opts : NetstatOpts)

theorem readPairs_ok_iff (lines : List Text) (connStats : ConnectionStats) :
    (∃ connStats', (pairStarts lines.length).foldlM (readPair fields parseUint opts lines) connStats = .ok connStats') ↔
      Even lines.length ∨ ∀ line ∈ lines.getLast?, (fields line).length < 2 := by
  simp only [← not_le]
  rw [← forall_pairStarts_iff lines fun line => 2 ≤ (fields line).length]
  apply foldlM_ok_iff
  intro connStats i hi
  have hlt := (mem_pairStarts.mp hi).2
  rw [readPair_ok_iff fields parseUint opts hlt]
  simp [hlt]

/-- No access is out of range exactly if no line of the file lacks its partner. -/
theorem readConnectionStats_in_range_iff (connStats : ConnectionStats) (file : Except String Text) :
    (∃ outcome, readConnectionStats fields parseUint opts connStats file = .ok outcome) ↔
      ∀ data, file = .ok data → PairedLines fields data := by
  cases file with
  | error err => exact iff_of_true ⟨_,rfl⟩ (fun data h => by cases h)
  | ok data =>
    simp only [readConnectionStats, dropTrailing_splitLines, bind, Except.bind, Except.ok.injEq, forall_eq', PairedLines]
    by_cases hone : (statLines data).length = 1
    · simp [hone, pure, Except.pure]
    · have hloop := readPairs_ok_iff fields parseUint opts (statLines data) connStats
      simp only [hone, if_false, false_or, ← hloop]
      cases (pairStarts (statLines data).length).foldlM (readPair fields parseUint opts (statLines data)) connStats with
      | error err => simp
      | ok connStats' => simp [pure, Except.pure]

end Reader

def asciiFields (text : Text) : List Text :=
  (text.splitOnP fun c => c = 32 ∨ 9 ≤ c ∧ c ≤ 13).filter (· ≠ [])

def threeLines : Text :=
  ascii "TcpExt: ListenDrops" ++ [10] ++ ascii "TcpExt: 3" ++ [10] ++ ascii "IpExt: InCsumErrors" ++ [10]

theorem readConnectionStats_out_of_range :
    readConnectionStats asciiFields (fun field => if field = ascii "3" then some 3 else none) ⟨true,false,false⟩ {}
      (.ok threeLines) = .error ⟨3,3⟩ := by
  decide +kernel

end Retina.LinuxUtil
