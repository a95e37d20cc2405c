import Retina.Capture.FilterMeaning
import Retina.Capture.HostLanguage

/-! # Include and exclude lists of the documented forms

An entry of a list is in the final map unless a later entry, with any address or with any port,
takes its place. An entry with an address and a port that comes behind one with the address
alone joins the ports of that one, and the text of the map then has no meaning.
-/
namespace Retina.Capture
open FilterGrammar

/-! ## Merging -/

/-- An entry is in the list, and none behind it takes its place. -/
def Survives (ps : List (String × String)) (ip port : String) : Prop :=
  ∃ pre post, ps = pre ++ (ip,port) :: post ∧ (ip,anyIPOrPort) ∉ post ∧ (anyIPOrPort,port) ∉ post

theorem Survives.mem {ps : List (String × String)} {ip port : String} (h : Survives ps ip port) : (ip,port) ∈ ps := by
  obtain ⟨pre,post,rfl,-⟩ := h
  exact List.mem_append_right pre List.mem_cons_self

theorem survives_concat (ps : List (String × String)) (e : String × String) (ip port : String) :
    Survives (ps ++ [e]) ip port ↔
      e = (ip,port) ∨ (Survives ps ip port ∧ e ≠ (ip,anyIPOrPort) ∧ e ≠ (anyIPOrPort,port)) := by
  constructor
  · rintro ⟨pre,post,hps,hip,hport⟩
    rcases List.eq_nil_or_concat post with rfl | ⟨post,e',rfl⟩
    · exact Or.inl (List.singleton_inj.mp (List.append_inj' hps rfl).2)
    · rw [List.concat_eq_append] at hps hip hport
      rw [← List.cons_append, ← List.append_assoc] at hps
      obtain ⟨hinit,hlast⟩ := List.append_inj' hps rfl
      obtain rfl := List.singleton_inj.mp hlast
      simp only [List.mem_append, List.mem_singleton, not_or] at hip hport
      exact Or.inr ⟨⟨pre,post,hinit,hip.1,hport.1⟩,Ne.symm hip.2,Ne.symm hport.2⟩
  · rintro (rfl | ⟨⟨pre,post,rfl,hip,hport⟩,hne,hne'⟩)
    · exact ⟨ps,[],rfl,List.not_mem_nil,List.not_mem_nil⟩
    · refine ⟨pre,post ++ [e],by simp,?_,?_⟩
      · simp [hip, hne.symm]
      · simp [hport, hne'.symm]

/-- What one entry does to the map. -/
theorem mem_ports_mergeFilter (m : IPPorts) {e : String × String} (he : e.1 = "" → e.2 ≠ "") (ip port : String) :
    port ∈ (mergeFilter m e).ports ip ↔
      e = (ip,port) ∨ (port ∈ m.ports ip ∧ e ≠ (ip,anyIPOrPort) ∧ e ≠ (anyIPOrPort,port)) := by
  obtain ⟨i,p⟩ := e
  unfold mergeFilter
  split_ifs with hi hp
  · rw [IPPorts.mem_ports_addPort, IPPorts.mem_ports_deletePort]
    grind [anyIPOrPort]
  · rw [IPPorts.mem_ports_setPorts, Finset.mem_singleton]
    grind
  · rw [IPPorts.mem_ports_addPort]
    grind

/-- The map has the entries that survive. -/
theorem mem_ports_mergeFilters (ps : List (String × String)) (hps : ∀ e ∈ ps, e.1 = "" → e.2 ≠ "")
    (ip port : String) : port ∈ (mergeFilters ps).ports ip ↔ Survives ps ip port := by
  induction ps using List.reverseRecOn with
  | nil =>
    refine iff_of_false (Finset.notMem_empty port) ?_
    intro h
    exact List.not_mem_nil h.mem
  | append_singleton ps e ih =>
    have hmerge : mergeFilters (ps ++ [e]) = mergeFilter (mergeFilters ps) e := by
      simp [mergeFilters, List.foldl_append]
    rw [hmerge, mem_ports_mergeFilter _ (hps e (by simp)), survives_concat,
      ih fun e he => hps e (List.mem_append_left _ he)]

/-- An entry with any port keeps its place. -/
theorem survives_anyPort_iff {ps : List (String × String)} (hps : ∀ e ∈ ps, e.1 = "" → e.2 ≠ "") {ip : String} :
    Survives ps ip anyIPOrPort ↔ (ip,anyIPOrPort) ∈ ps := by
  refine ⟨Survives.mem,fun h => ?_⟩
  induction ps using List.reverseRecOn with
  | nil => exact absurd h List.not_mem_nil
  | append_singleton ps e ih =>
    rw [survives_concat]
    by_cases he : e = (ip,anyIPOrPort)
    · exact Or.inl he
    · have hmem : (ip,anyIPOrPort) ∈ ps := by simpa [Ne.symm he] using h
      refine Or.inr ⟨ih (fun e he => hps e (List.mem_append_left _ he)) hmem,he,?_⟩
      rintro rfl
      exact hps (anyIPOrPort,anyIPOrPort) (by simp) rfl rfl

/-- What takes the place of an entry asks for the same address or any, and for the same port or any. -/
theorem exists_survives {ps : List (String × String)} {ip port : String} (h : (ip,port) ∈ ps) :
    ∃ ip' port', Survives ps ip' port' ∧ (ip' = ip ∨ ip' = anyIPOrPort) ∧
      (port' = port ∨ port' = anyIPOrPort) := by
  induction ps using List.reverseRecOn with
  | nil => exact absurd h List.not_mem_nil
  | append_singleton ps e ih =>
    rcases List.mem_append.mp h with h | h
    · obtain ⟨ip',port',hsurvives,hip,hport⟩ := ih h
      by_cases he : e = (ip',anyIPOrPort)
      · exact ⟨ip',anyIPOrPort,(survives_concat ps e _ _).mpr (Or.inl he),hip,Or.inr rfl⟩
      by_cases he' : e = (anyIPOrPort,port')
      · exact ⟨anyIPOrPort,port',(survives_concat ps e _ _).mpr (Or.inl he'),Or.inr rfl,hport⟩
      · exact ⟨ip',port',(survives_concat ps e _ _).mpr (Or.inr ⟨hsurvives,he,he'⟩),hip,hport⟩
    · obtain rfl := List.mem_singleton.mp h
      exact ⟨ip,port,(survives_concat ps _ _ _).mpr (Or.inl rfl),Or.inl rfl,Or.inl rfl⟩

/-! ## The packets of an entry -/

section
variable (ip : IPParser)

def pairSet (e : String × String) : Set Header :=
  {p | (e.1 = anyIPOrPort ∨ ∃ a, ip.parse e.1 = some a ∧ p ∈ hostSet a) ∧
    (e.2 = anyIPOrPort ∨ ∃ n, e.2 = decimal n ∧ p ∈ portSet n)}

end

section
variable {ip : IPParser}

theorem pairSet_port (n : UInt16) : pairSet ip (anyIPOrPort,decimal n) = portSet n := by
  ext p
  constructor
  · rintro ⟨-,h | ⟨n',hn,hp⟩⟩
    · exact absurd h (decimal_ne_empty n)
    · rwa [decimal_injective hn]
  · exact fun hp => ⟨Or.inl rfl,Or.inr ⟨n,rfl,hp⟩⟩

theorem pairSet_host {w : String} {a : Address} (h : ip.parse w = some a) :
    pairSet ip (w,anyIPOrPort) = hostSet a := by
  ext p
  constructor
  · rintro ⟨hempty | ⟨a',ha,hp⟩,-⟩
    · exact absurd hempty (address_ne_empty h)
    · rw [h, Option.some_inj] at ha
      rwa [ha]
  · exact fun hp => ⟨Or.inr ⟨a,h,hp⟩,Or.inl rfl⟩

theorem pairSet_eq_inter (w q : String) : pairSet ip (w,q) = pairSet ip (w,anyIPOrPort) ∩ pairSet ip (anyIPOrPort,q) := by
  ext p
  constructor
  · exact fun ⟨hw,hq⟩ => ⟨⟨hw,Or.inl rfl⟩,⟨Or.inl rfl,hq⟩⟩
  · exact fun ⟨⟨hw,_⟩,⟨_,hq⟩⟩ => ⟨hw,hq⟩

theorem pairSet_mono {w q w' q' : String} (hw : w' = w ∨ w' = anyIPOrPort) (hq : q' = q ∨ q' = anyIPOrPort) :
    pairSet ip (w,q) ⊆ pairSet ip (w',q') := by
  rintro p ⟨hpw,hpq⟩
  constructor
  · rcases hw with rfl | rfl
    · exact hpw
    · exact Or.inl rfl
  · rcases hq with rfl | rfl
    · exact hpq
    · exact Or.inl rfl

theorem Entry.pairSet_pair (e : Entry ip) : pairSet ip e.pair = e.matching := by
  cases e with
  | ipPort host port => rw [pair, pairSet_eq_inter, pairSet_host host.parsed, pairSet_port]; rfl
  | ipOnly host => exact pairSet_host host.parsed
  | portOnly port => exact pairSet_port port
  | anyIPPort port => exact pairSet_port port
  | ipAnyPort host => exact pairSet_host host.parsed

/-! ## Lists of entries -/

def pairs (es : List (Entry ip)) : List (String × String) := es.map Entry.pair

def entryMap (es : List (Entry ip)) : IPPorts := mergeFilters (pairs es)

def entriesSet (es : List (Entry ip)) : Set Header := {p | ∃ e ∈ es, p ∈ e.matching}

theorem validPair_of_mem_pairs {es : List (Entry ip)} {e : String × String} (he : e ∈ pairs es) : ValidPair ip e := by
  obtain ⟨e,-,rfl⟩ := List.mem_map.mp he
  exact e.validPair

theorem mem_ports_entryMap (es : List (Entry ip)) (w q : String) :
    q ∈ (entryMap es).ports w ↔ Survives (pairs es) w q :=
  mem_ports_mergeFilters (pairs es) (fun _ he => (validPair_of_mem_pairs he).nonempty) w q

theorem validPair_of_mem_ports {es : List (Entry ip)} {w q : String} (h : q ∈ (entryMap es).ports w) :
    ValidPair ip (w,q) :=
  validPair_of_mem_pairs ((mem_ports_entryMap es w q).mp h).mem

theorem entryMap_valid (es : List (Entry ip)) : (entryMap es).Valid ip := by
  intro w q hq
  have hpair := validPair_of_mem_ports hq
  refine ⟨hpair.address,?_⟩
  rcases hpair.port with hany | ⟨n,hn⟩
  · have hempty : q = "" := hany
    rw [hempty]
    exact isNumberText_empty
  · have hdecimal : q = decimal n := hn
    rw [hdecimal]
    exact isNumberText_decimal n

theorem filterArray_entryMap_eq_nil_iff {es : List (Entry ip)} : filterArray (entryMap es) = [] ↔ es = [] := by
  constructor
  · intro h
    rcases es with _ | ⟨e,es⟩
    · rfl
    · have he : e.pair ∈ pairs (e :: es) := List.mem_map_of_mem List.mem_cons_self
      obtain ⟨w,q,hsurvives,-⟩ := exists_survives he
      obtain ⟨c,hc,-⟩ := exists_clause ((mem_ports_entryMap _ w q).mpr hsurvives)
      rw [h] at hc
      exact absurd hc List.not_mem_nil
  · rintro rfl
    simp [filterArray, entryMap, pairs, mergeFilters, IPPorts.empty, sortStrings]

/-- No entry with an address and a port survives next to one with the address alone. -/
def Clean (es : List (Entry ip)) : Prop :=
  ∀ w q, w ≠ anyIPOrPort → q ≠ anyIPOrPort → (w,anyIPOrPort) ∈ pairs es → ¬Survives (pairs es) w q

/-- No port is missing iff the list is clean. -/
theorem clean_iff {es : List (Entry ip)} :
    Clean es ↔ ∀ w, .hostPort w anyIPOrPort ∉ filterArray (entryMap es) := by
  have hnonempty : ∀ e ∈ pairs es, e.1 = "" → e.2 ≠ "" := fun _ he => (validPair_of_mem_pairs he).nonempty
  refine forall_congr' fun w => ?_
  rw [hostPort_mem_filterArray_iff]
  simp only [mem_ports_entryMap, survives_anyPort_iff hnonempty]
  constructor
  · rintro h ⟨hw,hany,q,hq,hne⟩
    exact h q hw hne hany hq
  · exact fun h q hw hq hany hsurvives => h ⟨hw,hany,q,hsurvives,hq⟩

theorem exists_clause_iff_exists_entry (es : List (Entry ip)) (p : Header) :
    (∃ c ∈ filterArray (entryMap es), p ∈ pairSet ip c.pair) ↔ ∃ e ∈ es, p ∈ e.matching := by
  constructor
  · rintro ⟨c,hc,hp⟩
    have hsurvives := (mem_ports_entryMap es _ _).mp (pair_mem_of_mem_filterArray hc)
    obtain ⟨e,he,hpair⟩ := List.mem_map.mp hsurvives.mem
    refine ⟨e,he,?_⟩
    rw [← e.pairSet_pair, hpair]
    exact hp
  · rintro ⟨e,he,hp⟩
    obtain ⟨w,q,hsurvives,hw,hq⟩ := exists_survives (List.mem_map_of_mem he : e.pair ∈ pairs es)
    obtain ⟨c,hc,hpair⟩ := exists_clause ((mem_ports_entryMap es w q).mpr hsurvives)
    refine ⟨c,hc,?_⟩
    rw [hpair]
    rw [← e.pairSet_pair] at hp
    exact pairSet_mono hw hq hp

/-- A clause that is not missing its port matches what its address and its port do. -/
theorem meaning_eq_pairSet {P : Type} (L : PcapLanguage ip P) {es : List (Entry ip)} {c : Clause}
    (hc : c ∈ filterArray (entryMap es)) (hport : ∀ w, c ≠ .hostPort w anyIPOrPort) :
    c.meaning L = some (L.packets (pairSet ip c.pair)) := by
  have hpair := validPair_of_mem_ports (pair_mem_of_mem_filterArray hc)
  have hvalid := valid_of_mem_filterArray (entryMap_valid es) hc
  cases hvalid with
  | @port q _ =>
    obtain ⟨n,rfl⟩ : ∃ n, q = decimal n := hpair.port.resolve_left (hpair.nonempty rfl)
    rw [Clause.meaning, Clause.pair, L.portMeaning_decimal, pairSet_port]
    rfl
  | @host w a ha => rw [Clause.meaning, Clause.pair, ha, pairSet_host ha, Option.map_some]
  | @hostPort w a q ha _ =>
    obtain ⟨n,rfl⟩ : ∃ n, q = decimal n := by
      refine hpair.port.resolve_left ?_
      rintro rfl
      exact hport w rfl
    rw [Clause.meaning, Clause.pair, ha, L.portMeaning_decimal, pairSet_eq_inter, pairSet_host ha, pairSet_port]
    rfl

/-- The group of a list matches what its entries name. -/
theorem groupMeaning_clean {P : Type} (L : PcapLanguage ip P) {es : List (Entry ip)} (hes : Clean es) :
    groupMeaning L (entryMap es) = some (L.packets (entriesSet es)) := by
  have hmeaning : ∀ c ∈ filterArray (entryMap es), c.meaning L = some (L.packets (pairSet ip c.pair)) := by
    intro c hc
    refine meaning_eq_pairSet L hc ?_
    rintro w rfl
    exact clean_iff.mp hes w hc
  rw [groupMeaning, anyOf_eq_some _ hmeaning]
  congr 1
  ext p
  exact exists_clause_iff_exists_entry es (L.header p)

theorem groupMeaning_not_clean {P : Type} (L : PcapLanguage ip P) {es : List (Entry ip)} (hes : ¬Clean es) :
    groupMeaning L (entryMap es) = none := by
  rw [clean_iff] at hes
  push Not at hes
  obtain ⟨w,hw⟩ := hes
  refine anyOf_eq_none _ hw ?_
  rw [Clause.meaning, show L.portMeaning anyIPOrPort = none from L.portMeaning_empty, Option.map₂_none_right]

theorem clean_nil : Clean ([] : List (Entry ip)) := fun _ _ _ _ h => absurd h List.not_mem_nil

theorem groupMeaning_eq_some_iff {P : Type} (L : PcapLanguage ip P) {es : List (Entry ip)} {m : Set P} :
    groupMeaning L (entryMap es) = some m ↔ Clean es ∧ L.packets (entriesSet es) = m := by
  by_cases hes : Clean es
  · rw [groupMeaning_clean L hes, Option.some_inj]
    exact (and_iff_right hes).symm
  · rw [groupMeaning_not_clean L hes]
    exact iff_of_false (by simp) fun h => hes h.1

/-! ## The filter of two lists -/

section
variable (inc exc : List (Entry ip))

def entriesFilter : String := tcpdumpFiltersFromIncludeAndExcludeFilters (entryMap inc) (entryMap exc)

def documentedSet : Set Header := {p | (inc = [] ∨ p ∈ entriesSet inc) ∧ p ∉ entriesSet exc}

theorem obtainTcpdumpFilters_entries :
    obtainTcpdumpFilters ip (some ⟨inc.map Entry.text,exc.map Entry.text⟩) = .ok (entriesFilter inc exc) := by
  rw [obtainTcpdumpFilters, parseIncludeAndExcludeFilters, filterToIPPortsMap_entries, filterToIPPortsMap_entries]
  rfl

end

theorem entriesFilter_eq_empty_iff {inc exc : List (Entry ip)} : entriesFilter inc exc = "" ↔ inc = [] ∧ exc = [] := by
  rw [entriesFilter, tcpdumpFilters_eq_empty_iff, filterArray_entryMap_eq_nil_iff, filterArray_entryMap_eq_nil_iff]

section
variable {P : Type} (L : PcapLanguage ip P) {inc exc : List (Entry ip)} {m : Set P}

theorem includeMeaning_eq_some_iff :
    includeMeaning L (entryMap inc) = some m ↔ Clean inc ∧ L.packets {p | inc = [] ∨ p ∈ entriesSet inc} = m := by
  rw [includeMeaning]
  simp only [List.isEmpty_iff, filterArray_entryMap_eq_nil_iff]
  split_ifs with hinc
  · simp [hinc, clean_nil, PcapLanguage.packets]
  · simp only [groupMeaning_eq_some_iff, hinc, false_or]
    rfl

theorem excludeMeaning_eq_some_iff :
    excludeMeaning L (entryMap exc) = some m ↔ Clean exc ∧ L.packets (entriesSet exc)ᶜ = m := by
  rw [excludeMeaning]
  simp only [List.isEmpty_iff, filterArray_entryMap_eq_nil_iff]
  split_ifs with hexc
  · simp [hexc, clean_nil, entriesSet, PcapLanguage.packets]
  · rw [Option.map_eq_some_iff]
    simp [groupMeaning_eq_some_iff, and_assoc, PcapLanguage.packets]

theorem filterMeaning_eq_some_iff :
    filterMeaning L (entryMap inc) (entryMap exc) = some m ↔ (Clean inc ∧ Clean exc) ∧ L.packets (documentedSet inc exc) = m := by
  rw [filterMeaning, Option.map₂_eq_some_iff]
  constructor
  · rintro ⟨m₁,m₂,h₁,h₂,rfl⟩
    obtain ⟨hinc,rfl⟩ := (includeMeaning_eq_some_iff L).mp h₁
    obtain ⟨hexc,rfl⟩ := (excludeMeaning_eq_some_iff L).mp h₂
    exact ⟨⟨hinc,hexc⟩,rfl⟩
  · rintro ⟨⟨hinc,hexc⟩,rfl⟩
    exact ⟨_,_,(includeMeaning_eq_some_iff L).mpr ⟨hinc,rfl⟩,(excludeMeaning_eq_some_iff L).mpr ⟨hexc,rfl⟩,rfl⟩

variable (inc exc m) in
theorem accepts_entriesFilter_iff :
    L.Accepts (entriesFilter inc exc) m ↔ (Clean inc ∧ Clean exc) ∧ L.packets (documentedSet inc exc) = m := by
  by_cases hempty : entriesFilter inc exc = ""
  · obtain ⟨rfl,rfl⟩ := entriesFilter_eq_empty_iff.mp hempty
    have hall : L.packets (documentedSet ([] : List (Entry ip)) []) = Set.univ := by
      simp [documentedSet, entriesSet, PcapLanguage.packets]
    rw [PcapLanguage.Accepts, hempty, L.lex_empty, hall]
    simp [clean_nil, eq_comm]
  · have hexpr := isExpr_tcpdumpFilters L (entryMap_valid inc) (entryMap_valid exc) hempty
    exact (PcapLanguage.accepts_iff hexpr m).trans (filterMeaning_eq_some_iff L)

end

/-! ## The documented filter -/

/-- The lists are accepted, the text is empty only if they are, and it matches what is documented. -/
def Documented {P : Type} (L : PcapLanguage ip P) (inc exc : List (Entry ip)) : Prop :=
  ∃ text, obtainTcpdumpFilters ip (some ⟨inc.map Entry.text,exc.map Entry.text⟩) = .ok text ∧
    (text = "" ↔ inc = [] ∧ exc = []) ∧ ∀ m, L.Accepts text m ↔ L.packets (documentedSet inc exc) = m

theorem documented_iff_clean {P : Type} (L : PcapLanguage ip P) (inc exc : List (Entry ip)) :
    Documented L inc exc ↔ Clean inc ∧ Clean exc := by
  constructor
  · rintro ⟨text,htext,-,hmeaning⟩
    rw [obtainTcpdumpFilters_entries] at htext
    obtain rfl := Except.ok.inj htext
    exact ((accepts_entriesFilter_iff L inc exc _).mp ((hmeaning _).mpr rfl)).1
  · intro hclean
    refine ⟨entriesFilter inc exc,obtainTcpdumpFilters_entries inc exc,entriesFilter_eq_empty_iff,fun m => ?_⟩
    rw [accepts_entriesFilter_iff]
    exact and_iff_right hclean

def Unmixed (es : List (Entry ip)) : Prop :=
  ∀ w q, (w,anyIPOrPort) ∈ pairs es → (w,q) ∈ pairs es → q = anyIPOrPort

theorem Unmixed.clean {es : List (Entry ip)} (h : Unmixed es) : Clean es :=
  fun w q _ hq hany hsurvives => hq (h w q hany hsurvives.mem)

theorem Unmixed.perm {es es' : List (Entry ip)} (h : Unmixed es) (hperm : es'.Perm es) : Unmixed es' := by
  have hpairs : (pairs es').Perm (pairs es) := hperm.map Entry.pair
  exact fun w q hany hq => h w q (hpairs.mem_iff.mp hany) (hpairs.mem_iff.mp hq)

/-- A list is clean in any order iff no address is mixed: the entry with the port can come last. -/
theorem forall_perm_clean_iff {es : List (Entry ip)} : (∀ es', es'.Perm es → Clean es') ↔ Unmixed es := by
  refine ⟨fun h w q hany hq => ?_,fun h es' hperm => (h.perm hperm).clean⟩
  by_contra hne
  obtain ⟨e,he,hpair⟩ := List.mem_map.mp hq
  obtain ⟨pre,post,rfl⟩ := List.mem_iff_append.mp he
  have hperm : (pre ++ post ++ [e]).Perm (pre ++ e :: post) := by
    rw [List.append_assoc]
    exact (List.perm_append_singleton e post).append_left pre
  have hw : w ≠ anyIPOrPort := fun hw => (validPair_of_mem_pairs hany).nonempty hw rfl
  refine h _ hperm w q hw hne ((hperm.map Entry.pair).mem_iff.mpr hany) ?_
  refine ⟨pairs (pre ++ post),[],?_,List.not_mem_nil,List.not_mem_nil⟩
  rw [← hpair]
  exact List.map_append

theorem documentedSet_perm {inc exc inc' exc' : List (Entry ip)} (hinc : inc'.Perm inc) (hexc : exc'.Perm exc) :
    documentedSet inc' exc' = documentedSet inc exc := by
  ext p
  simp only [documentedSet, entriesSet, Set.mem_ofPred_eq, hinc.mem_iff, hexc.mem_iff]
  rw [show inc' = [] ↔ inc = [] from ⟨fun h => (h ▸ hinc).nil_eq.symm,fun h => (h ▸ hinc).eq_nil⟩]

/-- The filter is the documented one iff no entry with an address and a port survives next to one
with the address alone. It is the documented one in any order of the lists iff no address is
mixed. -/
theorem obtainTcpdumpFilters_documented_iff {P : Type} (L : PcapLanguage ip P) (inc exc : List (Entry ip)) :
    (Documented L inc exc ↔ Clean inc ∧ Clean exc) ∧
      ((∀ inc' exc', inc'.Perm inc → exc'.Perm exc →
          Documented L inc' exc' ∧ documentedSet inc' exc' = documentedSet inc exc) ↔
        Unmixed inc ∧ Unmixed exc) := by
  refine ⟨documented_iff_clean L inc exc,?_⟩
  rw [← forall_perm_clean_iff, ← forall_perm_clean_iff]
  constructor
  · intro h
    constructor
    · exact fun inc' hinc => ((documented_iff_clean L inc' exc).mp (h inc' exc hinc (.refl exc)).1).1
    · exact fun exc' hexc => ((documented_iff_clean L inc exc').mp (h inc exc' (.refl inc) hexc).1).2
  · rintro ⟨hinc,hexc⟩ inc' exc' hperm hperm'
    refine ⟨(documented_iff_clean L inc' exc').mpr ⟨hinc inc' hperm,hexc exc' hperm'⟩,?_⟩
    exact documentedSet_perm hperm hperm'

end

/-! ## An address with and without a port -/

section
open HostLanguage

def firstHost : IPv4Text knownParser where
  text := "10.0.0.1"
  addr := 0x0a000001
  parsed := parse_firstIP
  dotted := by decide
  noColon := by decide

def hostThenPort : List (Entry knownParser) := [.ipOnly firstHost,.ipPort firstHost 80]

theorem filterArray_hostThenPort : filterArray (entryMap hostThenPort) =
    [.hostPort "10.0.0.1" "",.hostPort "10.0.0.1" "80"] := by
  have hips : (entryMap hostThenPort).ips = {"10.0.0.1"} := by decide +kernel
  have hports : (entryMap hostThenPort).ports "10.0.0.1" = insert "" {"80"} := by decide +kernel
  have hsort : sortStrings (insert "" {"80"}) = ["","80"] := by
    rw [sortStrings, Finset.sort_insert]
    · simp
    · decide +kernel
    · decide +kernel
  rw [filterArray, hips, sortStrings, Finset.sort_singleton, List.flatMap_singleton, hports, addressClauses,
    if_neg (by decide), if_neg (by decide +kernel), hsort]
  rfl

theorem not_clean_hostThenPort : ¬Clean hostThenPort := by
  rw [clean_iff, filterArray_hostThenPort]
  exact fun h => h "10.0.0.1" List.mem_cons_self

theorem entriesFilter_hostThenPort :
    entriesFilter hostThenPort [] = "((host 10.0.0.1 and port ) or (host 10.0.0.1 and port 80))" := by
  have hgroup : filterGroup (entryMap hostThenPort) =
      "((host 10.0.0.1 and port ) or (host 10.0.0.1 and port 80))" := by
    rw [filterGroup, filterArray_hostThenPort]
    decide +kernel
  have hempty : filterGroup (entryMap ([] : List (Entry knownParser))) = "" :=
    filterGroup_eq_empty_iff.mpr (filterArray_entryMap_eq_nil_iff.mpr rfl)
  rw [entriesFilter, tcpdumpFiltersFromIncludeAndExcludeFilters, hgroup, hempty]
  decide +kernel

/-- The address is given first alone and then with a port: the text has a `port` without a number. -/
theorem hostThenPort_not_documented :
    obtainTcpdumpFilters knownParser (some ⟨["10.0.0.1","10.0.0.1:80"],[]⟩) =
        .ok "((host 10.0.0.1 and port ) or (host 10.0.0.1 and port 80))" ∧
      (∀ m, ¬(hostLanguage knownParser).Accepts "((host 10.0.0.1 and port ) or (host 10.0.0.1 and port 80))" m) ∧
      hostThenPort.map Entry.text = ["10.0.0.1","10.0.0.1:80"] ∧
      ¬Documented (hostLanguage knownParser) hostThenPort [] := by
  have htexts : hostThenPort.map Entry.text = ["10.0.0.1","10.0.0.1:80"] := by decide +kernel
  refine ⟨?_,fun m => ?_,htexts,fun h => ?_⟩
  · rw [← htexts, ← entriesFilter_hostThenPort]
    exact obtainTcpdumpFilters_entries hostThenPort []
  · rw [← entriesFilter_hostThenPort, accepts_entriesFilter_iff]
    exact fun h => not_clean_hostThenPort h.1.1
  · exact not_clean_hostThenPort ((documented_iff_clean _ _ _).mp h).1

/-- In the other order the address alone takes the place of the port. -/
theorem portThenHost_documented :
    Documented (hostLanguage knownParser) [.ipPort firstHost 80,.ipOnly firstHost] [.portOnly 443] := by
  refine (obtainTcpdumpFilters_documented_iff (hostLanguage knownParser) _ _).1.mpr ⟨?_,?_⟩
  · intro w q hw hq hany hsurvives
    rcases (survives_concat [("10.0.0.1","80")] ("10.0.0.1","") w q).mp hsurvives with h | ⟨h,hne,-⟩
    · exact hq (Prod.mk.inj h).2.symm
    · obtain ⟨rfl,-⟩ := Prod.mk.inj (List.mem_singleton.mp h.mem)
      exact hne rfl
  · refine Unmixed.clean fun w q hany _ => ?_
    have hpair := List.mem_singleton.mp hany
    exact absurd (Prod.mk.inj hpair).2 (decimal_ne_empty 443).symm

end

end Retina.Capture
