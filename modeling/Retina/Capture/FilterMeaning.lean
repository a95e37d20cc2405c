import Retina.Capture.Filters

/-! # What a map of addresses and ports means

The clauses that a map of addresses and ports is printed with, and the meaning of the text. A
text that comes from accepted entries is always one of the filter language's expressions up to
its ports: an address with an empty port next to another one is printed with a `port` that has
no number, and then the whole text has no meaning.
-/
namespace Retina.Capture
open FilterGrammar

/-! ## Clauses -/

def Clause.pair : Clause → String × String
  | .port q => (anyIPOrPort,q)
  | .host ip => (ip,anyIPOrPort)
  | .hostPort ip q => (ip,q)

theorem mem_sortStrings {texts : Finset String} {t : String} : t ∈ sortStrings texts ↔ t ∈ texts := Finset.mem_sort _

theorem mem_filterArray {m : IPPorts} {c : Clause} :
    c ∈ filterArray m ↔ ∃ ip, c ∈ addressClauses ip (m.ports ip) := by
  simp only [filterArray, List.mem_flatMap, mem_sortStrings]
  constructor
  · rintro ⟨ip,-,hc⟩
    exact ⟨ip,hc⟩
  · rintro ⟨ip,hc⟩
    by_cases hip : ip ∈ m.ips
    · exact ⟨ip,hip,hc⟩
    · rw [m.outside ip hip] at hc
      simp [addressClauses, sortStrings, eq_comm (a := (∅ : Finset String))] at hc

/-- The clauses of the map are its entries. -/
theorem pair_mem_of_mem_filterArray {m : IPPorts} {c : Clause} (hc : c ∈ filterArray m) :
    c.pair.2 ∈ m.ports c.pair.1 := by
  obtain ⟨ip,hc⟩ := mem_filterArray.mp hc
  unfold addressClauses at hc
  split_ifs at hc with hip hports
  · obtain ⟨q,hq,rfl⟩ := List.mem_map.mp hc
    subst hip
    exact mem_sortStrings.mp hq
  · obtain rfl := List.mem_singleton.mp hc
    simp only [Clause.pair, hports, Finset.mem_singleton]
  · obtain ⟨q,hq,rfl⟩ := List.mem_map.mp hc
    exact mem_sortStrings.mp hq

theorem exists_clause {m : IPPorts} {ip port : String} (h : port ∈ m.ports ip) :
    ∃ c ∈ filterArray m, c.pair = (ip,port) := by
  by_cases hip : ip = anyIPOrPort
  · refine ⟨.port port,mem_filterArray.mpr ⟨ip,?_⟩,by rw [hip]; rfl⟩
    rw [addressClauses, if_pos hip]
    exact List.mem_map.mpr ⟨port,mem_sortStrings.mpr h,rfl⟩
  by_cases hports : m.ports ip = {anyIPOrPort}
  · rw [hports, Finset.mem_singleton] at h
    refine ⟨.host ip,mem_filterArray.mpr ⟨ip,?_⟩,by rw [h]; rfl⟩
    rw [addressClauses, if_neg hip, if_pos hports]
    exact List.mem_singleton_self _
  · refine ⟨.hostPort ip port,mem_filterArray.mpr ⟨ip,?_⟩,rfl⟩
    rw [addressClauses, if_neg hip, if_neg hports]
    exact List.mem_map.mpr ⟨port,mem_sortStrings.mpr h,rfl⟩

/-- A port is missing in a clause if an address has any port next to another one. -/
theorem hostPort_mem_filterArray_iff {m : IPPorts} {ip : String} :
    .hostPort ip anyIPOrPort ∈ filterArray m ↔
      ip ≠ anyIPOrPort ∧ anyIPOrPort ∈ m.ports ip ∧ ∃ port ∈ m.ports ip, port ≠ anyIPOrPort := by
  rw [mem_filterArray]
  constructor
  · rintro ⟨j,hj⟩
    unfold addressClauses at hj
    split_ifs at hj with hip hports
    · obtain ⟨q,-,hq⟩ := List.mem_map.mp hj
      cases hq
    · cases List.mem_singleton.mp hj
    · obtain ⟨q,hq,heq⟩ := List.mem_map.mp hj
      obtain ⟨rfl,rfl⟩ := Clause.hostPort.inj heq
      have hmem := mem_sortStrings.mp hq
      refine ⟨hip,hmem,?_⟩
      by_contra! hall
      exact hports (Finset.eq_singleton_iff_unique_mem.mpr ⟨hmem,hall⟩)
  · rintro ⟨hip,hany,port,hport,hne⟩
    refine ⟨ip,?_⟩
    rw [addressClauses, if_neg hip, if_neg]
    · exact List.mem_map.mpr ⟨anyIPOrPort,mem_sortStrings.mpr hany,rfl⟩
    · intro hports
      rw [hports, Finset.mem_singleton] at hport
      exact hne hport

inductive Clause.Valid (ip : IPParser) : Clause → Prop
  | port {q} (hq : IsNumberText q) : Valid ip (.port q)
  | host {w a} (h : ip.parse w = some a) : Valid ip (.host w)
  | hostPort {w a q} (h : ip.parse w = some a) (hq : IsNumberText q) : Valid ip (.hostPort w q)

section
variable {ip : IPParser}

theorem valid_of_mem_filterArray {m : IPPorts} (hm : m.Valid ip) {c : Clause} (hc : c ∈ filterArray m) :
    c.Valid ip := by
  obtain ⟨w,hc⟩ := mem_filterArray.mp hc
  unfold addressClauses at hc
  split_ifs at hc with hw hports
  · obtain ⟨q,hq,rfl⟩ := List.mem_map.mp hc
    exact .port (hm w q (mem_sortStrings.mp hq)).2
  · obtain rfl := List.mem_singleton.mp hc
    have hany : anyIPOrPort ∈ m.ports w := by
      rw [hports]
      exact Finset.mem_singleton_self _
    obtain ⟨a,ha⟩ := (hm w _ hany).1.resolve_left hw
    exact .host ha
  · obtain ⟨q,hq,rfl⟩ := List.mem_map.mp hc
    obtain ⟨haddress,hnumber⟩ := hm w q (mem_sortStrings.mp hq)
    obtain ⟨a,ha⟩ := haddress.resolve_left hw
    exact .hostPort ha hnumber

/-! ## Meanings -/

section
variable {P : Type} (L : PcapLanguage ip P)

def Clause.meaning : Clause → Option (Set P)
  | .port q => L.portMeaning q
  | .host w => (ip.parse w).map fun a => L.packets (hostSet a)
  | .hostPort w q => Option.map₂ (· ∩ ·) ((ip.parse w).map fun a => L.packets (hostSet a)) (L.portMeaning q)

theorem isTerm_clause {c : Clause} (hc : c.Valid ip) : IsTerm L.toGrammar (L.lex c.text) (c.meaning L) := by
  cases hc with
  | @port q hq =>
    have htext : (Clause.port q).text = "(" ++ ("port " ++ q) ++ ")" := by
      rw [Clause.text, show "(port " = "(" ++ "port " from rfl]
      simp only [String.append_assoc]
    rw [htext, L.lex_group]
    exact (L.isTerm_port hq).expr.group
  | @host w a ha =>
    have htext : (Clause.host w).text = "(" ++ ("host " ++ w) ++ ")" := by
      rw [Clause.text, show "(host " = "(" ++ "host " from rfl]
      simp only [String.append_assoc]
    rw [htext, L.lex_group, Clause.meaning, ha]
    exact (L.isTerm_host ha).expr.group
  | @hostPort w a q ha hq =>
    have htext : (Clause.hostPort w q).text = "(" ++ ("host " ++ w ++ " and " ++ ("port " ++ q)) ++ ")" := by
      rw [Clause.text, show "(host " = "(" ++ "host " from rfl, show " and port " = " and " ++ "port " from rfl]
      simp only [String.append_assoc]
    rw [htext, L.lex_group, (L.lex_connective _ _).1, Clause.meaning, ha]
    exact ((L.isTerm_host ha).expr.join .and (L.isTerm_port hq)).group

noncomputable def groupMeaning (m : IPPorts) : Option (Set P) := anyOf (Clause.meaning L) (filterArray m)

theorem isTerm_filterGroup {m : IPPorts} (hm : m.Valid ip) (hne : filterArray m ≠ []) :
    IsTerm L.toGrammar (L.lex (filterGroup m)) (groupMeaning L m) := by
  rw [filterGroup, if_neg (by simpa using hne), L.lex_group, L.lex_joinTexts_or, List.map_map]
  exact (isExpr_joinTokens (Clause.meaning L) (fun c => L.lex c.text) (filterArray m)
    (fun c hc => isTerm_clause L (valid_of_mem_filterArray hm hc)) hne).group

noncomputable def includeMeaning (m : IPPorts) : Option (Set P) :=
  if (filterArray m).isEmpty then some Set.univ else groupMeaning L m

noncomputable def excludeMeaning (m : IPPorts) : Option (Set P) :=
  if (filterArray m).isEmpty then some Set.univ else (groupMeaning L m).map compl

noncomputable def filterMeaning (m m' : IPPorts) : Option (Set P) :=
  Option.map₂ (· ∩ ·) (includeMeaning L m) (excludeMeaning L m')

end

theorem filterGroup_eq_empty_iff {m : IPPorts} : filterGroup m = "" ↔ filterArray m = [] := by
  rw [filterGroup]
  split_ifs with h
  · simpa using h
  · refine iff_of_false ?_ (by simpa using h)
    intro hempty
    have hlist := congrArg String.toList hempty
    simp at hlist

theorem tcpdumpFilters_eq_empty_iff {m m' : IPPorts} :
    tcpdumpFiltersFromIncludeAndExcludeFilters m m' = "" ↔ filterArray m = [] ∧ filterArray m' = [] := by
  rw [← filterGroup_eq_empty_iff, ← filterGroup_eq_empty_iff, tcpdumpFiltersFromIncludeAndExcludeFilters]
  split_ifs with hnone hboth hinc
  · simpa using hnone
  · simp [hboth.1]
  · simp [hinc]
  · simp [show filterGroup m' ≠ "" by tauto]

theorem obtainTcpdumpFilters_none (ip : IPParser) : obtainTcpdumpFilters ip none = .ok "" := by
  have hempty : filterArray IPPorts.empty = [] := by simp [filterArray, IPPorts.empty, sortStrings]
  have htext := tcpdumpFilters_eq_empty_iff.mpr ⟨hempty,hempty⟩
  exact congrArg Except.ok htext

/-- The text of two maps that are not both empty is read from the left to the right, with the
exclude map under the negation. -/
theorem isExpr_tcpdumpFilters {P : Type} (L : PcapLanguage ip P) {m m' : IPPorts} (hm : m.Valid ip) (hm' : m'.Valid ip)
    (hne : tcpdumpFiltersFromIncludeAndExcludeFilters m m' ≠ "") :
    IsExpr L.toGrammar (L.lex (tcpdumpFiltersFromIncludeAndExcludeFilters m m')) (filterMeaning L m m') := by
  rw [Ne, tcpdumpFilters_eq_empty_iff] at hne
  unfold tcpdumpFiltersFromIncludeAndExcludeFilters filterMeaning includeMeaning excludeMeaning
  simp only [ne_eq, filterGroup_eq_empty_iff, List.isEmpty_iff]
  rw [if_neg hne]
  by_cases hinc : filterArray m = []
  · have hexc : filterArray m' ≠ [] := fun h => hne ⟨hinc,h⟩
    rw [if_neg (fun h => h.1 hinc), if_neg (fun h => h hinc), if_pos hinc, if_neg hexc, L.lex_negation]
    have hnot := (isTerm_filterGroup L hm' hexc).not.expr
    simpa [Option.map₂_coe_left, Function.comp_def] using hnot
  · by_cases hexc : filterArray m' = []
    · rw [if_neg (fun h => h.2 hexc), if_pos hinc, if_neg hinc, if_pos hexc]
      have hgroup := (isTerm_filterGroup L hm hinc).expr
      simpa [Option.map₂_coe_right] using hgroup
    · rw [if_pos ⟨hinc,hexc⟩, if_neg hinc, if_neg hexc, show " and not " = " and " ++ "not " from rfl,
        ← String.append_assoc, String.append_assoc, (L.lex_connective _ _).1, L.lex_negation]
      exact (isTerm_filterGroup L hm hinc).expr.join .and (isTerm_filterGroup L hm' hexc).not

end

end Retina.Capture
