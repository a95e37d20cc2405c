import Retina.Capture.Pcap

/-! # Include and exclude filters

`filterToIPPortsMap` and `tcpdumpFiltersFromIncludeAndExcludeFilters` of
`pkg/capture/crd_to_job.go`. The entries of a list are merged one after the other into a map
from addresses to ports, in which the empty text stands for any address or any port, and the
map is printed as a tcpdump filter.
-/
namespace Retina.Capture
open FilterGrammar

def anyIPOrPort : String := ""

/-- The ports of each address, a `map[string]map[string]struct{}`. An address that is not in the
map reads as one without ports. -/
structure IPPorts where
  ips : Finset String
  ports : String → Finset String
  outside : ∀ ip ∉ ips, ports ip = ∅

namespace IPPorts

def empty : IPPorts := ⟨∅,fun _ => ∅,fun _ _ => rfl⟩

/-- `delete(port, portFilter)` in the ports of all addresses. -/
def deletePort (m : IPPorts) (port : String) : IPPorts where
  ips := m.ips
  ports ip := (m.ports ip).erase port
  outside ip h := by rw [m.outside ip h, Finset.erase_empty]

def setPorts (m : IPPorts) (ip : String) (ports : Finset String) : IPPorts where
  ips := insert ip m.ips
  ports := Function.update m.ports ip ports
  outside j h := by
    rw [Finset.mem_insert, not_or] at h
    rw [Function.update_of_ne h.1, m.outside j h.2]

def addPort (m : IPPorts) (ip port : String) : IPPorts := m.setPorts ip (insert port (m.ports ip))

end IPPorts

def unsignedValue (ds : List Char) : Option ℤ :=
  if ds ≠ [] ∧ ds.all Char.isDigit = true then some (Nat.ofDigitChars 10 ds 0) else none

/-- `strconv.Atoi`. Numbers that do not fit in an `int` are read here, and are no ports either. -/
def atoi (s : String) : Option ℤ :=
  match s.toList with
  | '-' :: ds => (unsignedValue ds).map Neg.neg
  | '+' :: ds => unsignedValue ds
  | ds => unsignedValue ds

def splitFilter (filter : String) : String × String :=
  if ':' ∈ filter.toList then
    let ipPort := (filter.toList.splitOn ':').map String.ofList
    let ipAddressFilter := ipPort.getD 0 ""
    let portFilter := ipPort.getD 1 ""
    (if ipAddressFilter = "*" then anyIPOrPort else ipAddressFilter,
      if portFilter = "*" then anyIPOrPort else portFilter)
  else if '.' ∈ filter.toList then (filter,"")
  else ("",filter)

def validPort (portFilter : String) : Bool :=
  match atoi portFilter with
  | some portInt => !(65535 < portInt || portInt < 0)
  | none => false

def validFilter (ip : IPParser) (ipPort : String × String) : Bool :=
  (ipPort.1 == "" || (ip.parse ipPort.1).isSome) && (ipPort.2 == "" || validPort ipPort.2)

/-- An entry with any address takes its port from all other addresses, and one with any port
takes the place of all ports of its address. -/
def mergeFilter (m : IPPorts) (ipPort : String × String) : IPPorts :=
  if ipPort.1 = anyIPOrPort then (m.deletePort ipPort.2).addPort anyIPOrPort ipPort.2
  else if ipPort.2 = anyIPOrPort then m.setPorts ipPort.1 {anyIPOrPort}
  else m.addPort ipPort.1 ipPort.2

def filterToIPPortsMap (ip : IPParser) (filters : List String) : Except String IPPorts :=
  filters.foldlM (fun m filter =>
    if filter = "" then .ok m
    else if validFilter ip (splitFilter filter) then .ok (mergeFilter m (splitFilter filter))
    else .error ("invalid filter " ++ filter)) IPPorts.empty

inductive Clause
  | port (port : String)
  | host (ip : String)
  | hostPort (ip port : String)

def Clause.text : Clause → String
  | .port q => "(port " ++ q ++ ")"
  | .host ip => "(host " ++ ip ++ ")"
  | .hostPort ip q => "(host " ++ ip ++ " and port " ++ q ++ ")"

def sortStrings (texts : Finset String) : List String := texts.sort (· ≤ ·)

def addressClauses (ip : String) (ports : Finset String) : List Clause :=
  if ip = anyIPOrPort then (sortStrings ports).map .port
  else if ports = {anyIPOrPort} then [.host ip]
  else (sortStrings ports).map (.hostPort ip)

def filterArray (m : IPPorts) : List Clause :=
  (sortStrings m.ips).flatMap fun ip => addressClauses ip (m.ports ip)

def filterGroup (m : IPPorts) : String :=
  if (filterArray m).isEmpty then "" else "(" ++ joinTexts " or " ((filterArray m).map Clause.text) ++ ")"

def tcpdumpFiltersFromIncludeAndExcludeFilters (includeIPPortsFilters excludeIPPortsFilters : IPPorts) : String :=
  let includeFilterGroup := filterGroup includeIPPortsFilters
  let excludeFilterGroup := filterGroup excludeIPPortsFilters
  if includeFilterGroup = "" ∧ excludeFilterGroup = "" then ""
  else if includeFilterGroup ≠ "" ∧ excludeFilterGroup ≠ "" then
    includeFilterGroup ++ " and not " ++ excludeFilterGroup
  else if includeFilterGroup ≠ "" then includeFilterGroup
  else "not " ++ excludeFilterGroup

structure CaptureConfigurationFilters where
  includes : List String
  excludes : List String

/-- A nil map prints as the empty one does. -/
def parseIncludeAndExcludeFilters (ip : IPParser) :
    Option CaptureConfigurationFilters → Except String (IPPorts × IPPorts)
  | none => .ok (.empty,.empty)
  | some filters => do
    let includeIPPortFilters ← filterToIPPortsMap ip filters.includes
    let excludeIPPortFilters ← filterToIPPortsMap ip filters.excludes
    .ok (includeIPPortFilters,excludeIPPortFilters)

def obtainTcpdumpFilters (ip : IPParser) (filters : Option CaptureConfigurationFilters) : Except String String := do
  let maps ← parseIncludeAndExcludeFilters ip filters
  .ok (tcpdumpFiltersFromIncludeAndExcludeFilters maps.1 maps.2)

/-! ## What is in the map -/

theorem isNumberText_of_validPort {q : String} (h : validPort q = true) : IsNumberText q := by
  have hdigits : ∀ {ds : List Char} {k : ℤ}, unsignedValue ds = some k → ∀ c ∈ ds, c ∈ numberChars := by
    intro ds k hk c hc
    unfold unsignedValue at hk
    split_ifs at hk with hall
    exact mem_numberChars_of_isDigit (List.all_eq_true.mp hall.2 c hc)
  obtain ⟨k,hk⟩ : ∃ k, atoi q = some k := by
    unfold validPort at h
    split at h
    · next k hk => exact ⟨k,hk⟩
    · cases h
  intro c hc
  unfold atoi at hk
  split at hk
  · next ds hds =>
    obtain ⟨k,hk,-⟩ := Option.map_eq_some_iff.mp hk
    rw [hds] at hc
    rcases List.mem_cons.mp hc with rfl | hc
    · decide
    · exact hdigits hk c hc
  · next ds hds =>
    rw [hds] at hc
    rcases List.mem_cons.mp hc with rfl | hc
    · decide
    · exact hdigits hk c hc
  · exact hdigits hk c hc

namespace IPPorts
variable (m : IPPorts) (ip port j q : String)

theorem mem_ports_deletePort : q ∈ (m.deletePort port).ports j ↔ q ≠ port ∧ q ∈ m.ports j := Finset.mem_erase

theorem mem_ports_setPorts (ports : Finset String) :
    q ∈ (m.setPorts ip ports).ports j ↔ (j = ip ∧ q ∈ ports) ∨ (j ≠ ip ∧ q ∈ m.ports j) := by
  rcases eq_or_ne j ip with rfl | hj
  · simp [setPorts]
  · simp [setPorts, hj]

theorem mem_ports_addPort : q ∈ (m.addPort ip port).ports j ↔ (j = ip ∧ q = port) ∨ q ∈ m.ports j := by
  rw [addPort, mem_ports_setPorts, Finset.mem_insert]
  rcases eq_or_ne j ip with rfl | hj
  · simp
  · simp [hj]

def Valid (ip : IPParser) (m : IPPorts) : Prop :=
  ∀ w q, q ∈ m.ports w → (w = anyIPOrPort ∨ ∃ a, ip.parse w = some a) ∧ IsNumberText q

end IPPorts

/-- An entry adds no ports but its own. -/
theorem mem_ports_of_mergeFilter {m : IPPorts} {e : String × String} {w q : String}
    (h : q ∈ (mergeFilter m e).ports w) : e = (w,q) ∨ q ∈ m.ports w := by
  unfold mergeFilter at h
  split_ifs at h with hip hport
  · rw [IPPorts.mem_ports_addPort, IPPorts.mem_ports_deletePort] at h
    grind
  · rw [IPPorts.mem_ports_setPorts, Finset.mem_singleton] at h
    grind
  · rw [IPPorts.mem_ports_addPort] at h
    grind

theorem mergeFilter_valid {ip : IPParser} {m : IPPorts} (hm : m.Valid ip) {e : String × String}
    (he : validFilter ip e = true) : (mergeFilter m e).Valid ip := by
  intro w q hq
  rcases mem_ports_of_mergeFilter hq with rfl | hq
  · simp only [validFilter, Bool.and_eq_true, Bool.or_eq_true, beq_iff_eq, Option.isSome_iff_exists] at he
    refine ⟨he.1,?_⟩
    rcases he.2 with rfl | hport
    · exact isNumberText_empty
    · exact isNumberText_of_validPort hport
  · exact hm w q hq

theorem filterToIPPortsMap_valid {ip : IPParser} {filters : List String} {m : IPPorts}
    (h : filterToIPPortsMap ip filters = .ok m) : m.Valid ip := by
  unfold filterToIPPortsMap at h
  have hempty : IPPorts.empty.Valid ip := fun w q hq => absurd hq (Finset.notMem_empty q)
  generalize IPPorts.empty = m₀ at h hempty
  induction filters generalizing m₀ with
  | nil =>
    obtain rfl := Except.ok.inj h
    exact hempty
  | cons filter filters ih =>
    rw [List.foldlM_cons] at h
    split_ifs at h with hskip hvalid
    · exact ih m₀ h hempty
    · exact ih _ h (mergeFilter_valid hempty hvalid)
    · cases h

theorem parseIncludeAndExcludeFilters_valid {ip : IPParser} {filters : Option CaptureConfigurationFilters}
    {maps : IPPorts × IPPorts} (h : parseIncludeAndExcludeFilters ip filters = .ok maps) :
    maps.1.Valid ip ∧ maps.2.Valid ip := by
  cases filters with
  | none =>
    obtain rfl := Except.ok.inj h
    exact ⟨fun w q hq => absurd hq (Finset.notMem_empty q),fun w q hq => absurd hq (Finset.notMem_empty q)⟩
  | some filters =>
    rw [parseIncludeAndExcludeFilters] at h
    cases hinc : filterToIPPortsMap ip filters.includes with
    | error e =>
      rw [hinc] at h
      cases h
    | ok m =>
      cases hexc : filterToIPPortsMap ip filters.excludes with
      | error e =>
        rw [hinc, hexc] at h
        cases h
      | ok m' =>
        rw [hinc, hexc] at h
        obtain rfl := Except.ok.inj h
        exact ⟨filterToIPPortsMap_valid hinc,filterToIPPortsMap_valid hexc⟩

/-! ## Entries of the documented forms -/

structure IPv4Text (ip : IPParser) where
  text : String
  addr : BitVec 32
  parsed : ip.parse text = some (.v4 addr)
  dotted : '.' ∈ text.toList
  noColon : ':' ∉ text.toList

inductive Entry (ip : IPParser)
  | ipPort (host : IPv4Text ip) (port : UInt16)
  | ipOnly (host : IPv4Text ip)
  | portOnly (port : UInt16)
  | anyIPPort (port : UInt16)
  | ipAnyPort (host : IPv4Text ip)

namespace Entry
variable {ip : IPParser}

def text : Entry ip → String
  | .ipPort host port => host.text ++ ":" ++ decimal port
  | .ipOnly host => host.text
  | .portOnly port => decimal port
  | .anyIPPort port => "*:" ++ decimal port
  | .ipAnyPort host => host.text ++ ":*"

def pair : Entry ip → String × String
  | .ipPort host port => (host.text,decimal port)
  | .ipOnly host => (host.text,anyIPOrPort)
  | .portOnly port => (anyIPOrPort,decimal port)
  | .anyIPPort port => (anyIPOrPort,decimal port)
  | .ipAnyPort host => (host.text,anyIPOrPort)

def matching : Entry ip → Set Header
  | .ipPort host port => hostSet (.v4 host.addr) ∩ portSet port
  | .ipOnly host => hostSet (.v4 host.addr)
  | .portOnly port => portSet port
  | .anyIPPort port => portSet port
  | .ipAnyPort host => hostSet (.v4 host.addr)

end Entry

/-! ## Texts of entries -/

theorem atoi_decimal (n : UInt16) : atoi (decimal n) = some (n.toNat : ℤ) := by
  have hall : (decimal n).toList.all Char.isDigit = true := List.all_eq_true.mpr (decimal_isDigit n)
  have hminus := not_mem_decimal n (show '-'.isDigit = false from rfl)
  have hplus := not_mem_decimal n (show '+'.isDigit = false from rfl)
  have hvalue : Nat.ofDigitChars 10 (decimal n).toList 0 = n.toNat := by
    rw [decimal_toList]
    exact Nat.ofDigitChars_ten_toDigits
  unfold atoi
  split
  · next h => exact absurd (by rw [h]; exact List.mem_cons_self) hminus
  · next h => exact absurd (by rw [h]; exact List.mem_cons_self) hplus
  · rw [unsignedValue, if_pos ⟨decimal_toList_ne_nil n,hall⟩, hvalue]

theorem validPort_decimal (n : UInt16) : validPort (decimal n) = true := by
  have hn := n.toNat_lt
  simp only [validPort, atoi_decimal, Bool.not_eq_true', Bool.or_eq_false_iff, decide_eq_false_iff_not]
  constructor <;> omega

theorem splitFilter_colon {s t : String} (hs : ':' ∉ s.toList) (ht : ':' ∉ t.toList) :
    splitFilter (s ++ ":" ++ t) =
      (if s = "*" then anyIPOrPort else s,if t = "*" then anyIPOrPort else t) := by
  have hlist : (s ++ ":" ++ t).toList = [':'].intercalate [s.toList,t.toList] := by
    simp [List.intercalate]
  have hsplit : (s ++ ":" ++ t).toList.splitOn ':' = [s.toList,t.toList] := by
    rw [hlist]
    apply List.splitOn_intercalate
    · intro l hl
      rcases List.mem_pair.mp hl with rfl | rfl
      · exact hs
      · exact ht
    · simp
  rw [splitFilter, if_pos (by simp), hsplit]
  simp

theorem decimal_ne_star (n : UInt16) : decimal n ≠ "*" := by
  intro h
  exact not_mem_decimal n (show '*'.isDigit = false from rfl) (by rw [h]; exact List.mem_cons_self)

theorem star_ne_address {ip : IPParser} {w : String} {a : Address} (h : ip.parse w = some a) : w ≠ "*" := by
  rintro rfl
  exact absurd (ip.chars h '*' (by decide)) (by decide)

section
variable {ip : IPParser}

theorem Entry.splitFilter_text (e : Entry ip) : splitFilter e.text = e.pair := by
  have hcolon := fun n => not_mem_decimal n (show ':'.isDigit = false from rfl)
  have hdot := fun n => not_mem_decimal n (show '.'.isDigit = false from rfl)
  cases e with
  | ipPort host port =>
    rw [text, splitFilter_colon host.noColon (hcolon port), if_neg (star_ne_address host.parsed),
      if_neg (decimal_ne_star port)]
    rfl
  | ipOnly host =>
    rw [text, splitFilter, if_neg host.noColon, if_pos host.dotted]
    rfl
  | portOnly port =>
    rw [text, splitFilter, if_neg (hcolon port), if_neg (hdot port)]
    rfl
  | anyIPPort port =>
    have h := splitFilter_colon (s := "*") (by decide) (hcolon port)
    rw [if_pos rfl, if_neg (decimal_ne_star port)] at h
    exact h
  | ipAnyPort host =>
    have h := splitFilter_colon (t := "*") host.noColon (by decide)
    rw [if_pos rfl, if_neg (star_ne_address host.parsed)] at h
    rw [text, show ":*" = ":" ++ "*" from rfl, ← String.append_assoc]
    exact h

structure ValidPair (ip : IPParser) (e : String × String) : Prop where
  address : e.1 = "" ∨ ∃ a, ip.parse e.1 = some a
  port : e.2 = "" ∨ ∃ n, e.2 = decimal n
  nonempty : e.1 = "" → e.2 ≠ ""

theorem Entry.validPair (e : Entry ip) : ValidPair ip e.pair := by
  cases e with
  | ipPort host port => exact ⟨.inr ⟨_,host.parsed⟩,.inr ⟨port,rfl⟩,fun _ => decimal_ne_empty port⟩
  | ipOnly host => exact ⟨.inr ⟨_,host.parsed⟩,.inl rfl,fun h => absurd h (address_ne_empty host.parsed)⟩
  | portOnly port => exact ⟨.inl rfl,.inr ⟨port,rfl⟩,fun _ => decimal_ne_empty port⟩
  | anyIPPort port => exact ⟨.inl rfl,.inr ⟨port,rfl⟩,fun _ => decimal_ne_empty port⟩
  | ipAnyPort host => exact ⟨.inr ⟨_,host.parsed⟩,.inl rfl,fun h => absurd h (address_ne_empty host.parsed)⟩

theorem ValidPair.validFilter {e : String × String} (h : ValidPair ip e) : validFilter ip e = true := by
  have haddress : (e.1 == "" || (ip.parse e.1).isSome) = true := by
    rcases h.address with h | ⟨a,h⟩ <;> simp [h]
  have hport : (e.2 == "" || validPort e.2) = true := by
    rcases h.port with h | ⟨n,h⟩
    · simp [h]
    · simp [h, validPort_decimal]
  rw [Capture.validFilter, haddress, hport]
  rfl

theorem Entry.text_ne_empty (e : Entry ip) : e.text ≠ "" := by
  intro h
  have hpair := e.splitFilter_text
  rw [h] at hpair
  exact e.validPair.nonempty (by rw [← hpair]; rfl) (by rw [← hpair]; rfl)

def mergeFilters (ps : List (String × String)) : IPPorts := ps.foldl mergeFilter IPPorts.empty

/-- Entries of the documented forms are all accepted. -/
theorem filterToIPPortsMap_entries (es : List (Entry ip)) :
    filterToIPPortsMap ip (es.map Entry.text) = .ok (mergeFilters (es.map Entry.pair)) := by
  unfold filterToIPPortsMap mergeFilters
  generalize IPPorts.empty = m
  induction es generalizing m with
  | nil => rfl
  | cons e es ih =>
    simp only [List.map_cons, List.foldlM_cons, List.foldl_cons, if_neg e.text_ne_empty, e.splitFilter_text,
      e.validPair.validFilter, if_true]
    exact ih (mergeFilter m e.pair)

end

end Retina.Capture
