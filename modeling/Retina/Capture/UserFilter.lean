import Retina.Library.FilterSplice
import Retina.Capture.PodFilter

/-! # The filter of a user

The filter of a user, the one for source and destination addresses and the one of the system are
joined as texts, each in parentheses. The last part of a text always restricts what it matches.
The addresses are the last part of a text that is put in parentheses once more, and a filter that
closes both pairs of parentheses gets around them. All this is about texts without a keyword that
moves the place at which the later parts look.
-/
namespace Retina.Capture
open FilterGrammar

section
variable {ip : IPParser} {P : Type} (L : PcapLanguage ip P)

/-! ## Joined texts -/

theorem lex_combine {a b : String} (ha : a ≠ "") (hb : b ≠ "") :
    L.lex (combineBPFFilterExpressions a b) = (Token.lparen :: L.lex a ++ [Token.rparen]) ++
      Token.connective .and :: (Token.lparen :: L.lex b ++ [Token.rparen]) := by
  have htext : "(" ++ a ++ ") and (" ++ b ++ ")" = "(" ++ a ++ ")" ++ " and " ++ ("(" ++ b ++ ")") := by
    rw [show ") and (" = ")" ++ " and " ++ "(" from rfl]
    simp only [String.append_assoc]
  rw [combineBPFFilterExpressions, if_pos ⟨ha,hb⟩, htext, (L.lex_connective _ _).1, L.lex_group, L.lex_group]

theorem combine_empty_left (b : String) : combineBPFFilterExpressions "" b = b := by
  rcases eq_or_ne b "" with rfl | hb
  · rfl
  · simp [combineBPFFilterExpressions, hb]

theorem combine_empty_right (a : String) : combineBPFFilterExpressions a "" = a := by
  rcases eq_or_ne a "" with rfl | ha
  · rfl
  · simp [combineBPFFilterExpressions, ha]

variable {L}

/-- A text with two parts has the tokens of the first one. -/
theorem plain_of_combine {a b : String} (h : L.Plain (L.lex (combineBPFFilterExpressions a b))) :
    L.Plain (L.lex a) := by
  rcases eq_or_ne a "" with rfl | ha
  · rw [L.lex_empty]
    exact plain_nil
  · rcases eq_or_ne b "" with rfl | hb
    · rwa [combine_empty_right] at h
    · rw [lex_combine L ha hb] at h
      simp only [List.cons_append, plain_cons, plain_append] at h
      exact h.2.1.1

/-- A text with a second part matches what both parts do. The first part is read in its
parentheses. -/
theorem reads_of_accepts_combine {a b : String} {m : Set P} {o : Option (Set P)} (ha : a ≠ "")
    (hplain : L.Plain (L.lex a)) (hb : IsExpr L.toGrammar (L.lex b) o) (h : L.Accepts (combineBPFFilterExpressions a b) m) :
    ∃ m₁ m₂, Reads L.toGrammar .expr [] (Token.lparen :: L.lex a ++ [Token.rparen]) m₁ ∧ L.Accepts b m₂ ∧
      m = m₁ ∩ m₂ := by
  have hlex := lex_combine L ha (PcapLanguage.ne_empty_of_isExpr hb)
  rcases h with ⟨hnil,-⟩ | ⟨-,hreads⟩
  · rw [hlex] at hnil
    simp at hnil
  · rw [hlex, reads_join_iff hb.group.unsplit] at hreads
    obtain ⟨m₁,m₂,h₁,h₂,rfl⟩ := hreads
    exact ⟨m₁,m₂,h₁,(PcapLanguage.accepts_iff hb m₂).mpr ((hb.group.reads_iff _ (by simp [hplain]) m₂).mp h₂),rfl⟩

/-- Two optional expressions match what both of them do. -/
theorem isExpr_combine {a b : String} {m m' : Set P} (ha : a ≠ "" → IsExpr L.toGrammar (L.lex a) (some m))
    (hb : b ≠ "" → IsExpr L.toGrammar (L.lex b) (some m')) (hne : ¬(a = "" ∧ b = "")) :
    IsExpr L.toGrammar (L.lex (combineBPFFilterExpressions a b))
      (some {p | (a ≠ "" → p ∈ m) ∧ (b ≠ "" → p ∈ m')}) := by
  by_cases hae : a = ""
  · have hbe : b ≠ "" := fun h => hne ⟨hae,h⟩
    subst hae
    simpa [combine_empty_left, hbe] using hb hbe
  · by_cases hbe : b = ""
    · subst hbe
      simpa [combine_empty_right, hae] using ha hae
    · have hjoin := (ha hae).group.expr.join .and (hb hbe).group
      rw [lex_combine L hae hbe]
      simp only [ne_eq, hae, hbe, not_false_eq_true, true_imp_iff]
      exact hjoin

/-! ## Source and destination addresses -/

/-- The packets from one of the sources, if there are any, to one of the destinations, if there
are any. -/
def sourceDestinationSet (sources destinations : List (IPText ip)) : Set Header :=
  {p | (sources ≠ [] → p ∈ anyAddress srcHostSet sources) ∧
    (destinations ≠ [] → p ∈ anyAddress dstHostSet destinations)}

theorem bpfDirectionalHostClause_texts (direction : String) (ips : List (IPText ip)) :
    bpfDirectionalHostClause ip direction (texts ips) =
      joinTexts " or " ((texts ips).map fun w => direction ++ " host " ++ w) := by
  rw [bpfDirectionalHostClause, List.filter_eq_self.mpr]
  intro w hw
  obtain ⟨i,-,rfl⟩ := List.mem_map.mp hw
  rw [i.parsed]
  rfl

variable (L) in
theorem isExpr_srcClause {ips : List (IPText ip)} (hips : ips ≠ []) :
    IsExpr L.toGrammar (L.lex (bpfDirectionalHostClause ip "src" (texts ips)))
      (some (L.packets (anyAddress srcHostSet ips))) := by
  rw [bpfDirectionalHostClause_texts, show ("src" ++ " host " : String) = "src host " from rfl]
  exact L.isExpr_joinTexts L.isTerm_srcHost hips

variable (L) in
theorem isExpr_dstClause {ips : List (IPText ip)} (hips : ips ≠ []) :
    IsExpr L.toGrammar (L.lex (bpfDirectionalHostClause ip "dst" (texts ips)))
      (some (L.packets (anyAddress dstHostSet ips))) := by
  rw [bpfDirectionalHostClause_texts, show ("dst" ++ " host " : String) = "dst host " from rfl]
  exact L.isExpr_joinTexts L.isTerm_dstHost hips

/-! ## Texts without spaces at their ends -/

structure Tight (s : String) : Prop where
  first : ∃ c l, s.toList = c :: l ∧ isSpace c = false
  last : ∃ l c, s.toList = l ++ [c] ∧ isSpace c = false

theorem Tight.ne_empty {s : String} (h : Tight s) : s ≠ "" := by
  rintro rfl
  obtain ⟨c,l,h,-⟩ := h.first
  cases h

theorem Tight.trimSpace_eq {s : String} (h : Tight s) : trimSpace s = s := by
  obtain ⟨c,l,hfirst,hc⟩ := h.first
  obtain ⟨l',d,hlast,hd⟩ := h.last
  have hleft : s.toList.dropWhile isSpace = s.toList := by
    rw [hfirst]
    exact List.dropWhile_cons_of_neg (by simp [hc])
  have hright : s.toList.reverse.dropWhile isSpace = s.toList.reverse := by
    rw [hlast, List.reverse_append]
    exact List.dropWhile_cons_of_neg (by simp [hd])
  rw [trimSpace, hleft, hright, List.reverse_reverse, String.ofList_toList]

theorem Tight.append {s t : String} (hs : Tight s) (u : String) (ht : Tight t) : Tight (s ++ u ++ t) := by
  obtain ⟨c,l,hfirst,hc⟩ := hs.first
  obtain ⟨l',d,hlast,hd⟩ := ht.last
  constructor
  · exact ⟨c,l ++ u.toList ++ t.toList,by simp [hfirst],hc⟩
  · exact ⟨s.toList ++ u.toList ++ l',d,by simp [hlast],hd⟩

theorem tight_joinTexts {sep : String} {ts : List String} (hts : ∀ t ∈ ts, Tight t) (hne : ts ≠ []) :
    Tight (joinTexts sep ts) := by
  induction ts with
  | nil => exact absurd rfl hne
  | cons a ts ih =>
    cases ts with
    | nil => exact hts a List.mem_cons_self
    | cons b rest =>
      exact (hts a List.mem_cons_self).append sep (ih (fun t ht => hts t (List.mem_cons_of_mem a ht)) (by simp))

theorem tight_address {w : String} {a : Address} (h : ip.parse w = some a) : Tight w := by
  have hspace : ∀ c ∈ w.toList, isSpace c = false := by
    intro c hc
    have hall : addressChars.all (fun c => !isSpace c) = true := by decide
    simpa using List.all_eq_true.mp hall c (ip.chars h c hc)
  constructor
  · obtain ⟨c,l,hl⟩ := List.exists_cons_of_ne_nil (ip.nonempty h)
    exact ⟨c,l,hl,hspace c (by rw [hl]; exact List.mem_cons_self)⟩
  · obtain ⟨l,c,hl⟩ := (List.eq_nil_or_concat w.toList).resolve_left (ip.nonempty h)
    rw [List.concat_eq_append] at hl
    exact ⟨l,c,hl,hspace c (by rw [hl]; exact List.mem_append_right l List.mem_cons_self)⟩

theorem tight_clause {direction : String} (hdirection : Tight direction) {ips : List (IPText ip)} (hips : ips ≠ []) :
    Tight (bpfDirectionalHostClause ip direction (texts ips)) := by
  rw [bpfDirectionalHostClause_texts]
  refine tight_joinTexts ?_ (by simpa [texts] using hips)
  intro t ht
  obtain ⟨w,hw,rfl⟩ := List.mem_map.mp ht
  obtain ⟨i,-,rfl⟩ := List.mem_map.mp hw
  exact hdirection.append _ (tight_address i.parsed)

theorem tight_combine (a : String) {b : String} (hb : Tight b) : Tight (combineBPFFilterExpressions a b) := by
  rcases eq_or_ne a "" with rfl | ha
  · rwa [combine_empty_left]
  · have hopen : Tight "(" := ⟨⟨_,_,rfl,rfl⟩,⟨[],_,rfl,rfl⟩⟩
    have hclose : Tight ")" := ⟨⟨_,_,rfl,rfl⟩,⟨[],_,rfl,rfl⟩⟩
    rw [combineBPFFilterExpressions, if_pos ⟨ha,hb.ne_empty⟩]
    have htight := hopen.append (a ++ ") and (" ++ b) hclose
    simpa only [String.append_assoc] using htight

section
variable {sources destinations : List (IPText ip)}

theorem tight_src : Tight "src" := ⟨⟨_,_,rfl,rfl⟩,⟨['s','r'],_,rfl,rfl⟩⟩

theorem tight_dst : Tight "dst" := ⟨⟨_,_,rfl,rfl⟩,⟨['d','s'],_,rfl,rfl⟩⟩

theorem clause_eq_empty_iff {direction : String} (hdirection : Tight direction) {ips : List (IPText ip)} :
    bpfDirectionalHostClause ip direction (texts ips) = "" ↔ ips = [] := by
  constructor
  · intro h
    by_contra hips
    exact (tight_clause hdirection hips).ne_empty h
  · rintro rfl
    rfl

/-- The filter for sources and destinations, if there are any, has no spaces at its ends. -/
theorem tight_sourceDestination (h : ¬(sources = [] ∧ destinations = [])) :
    Tight (buildSourceDestinationIPFilter ip (texts sources) (texts destinations)) := by
  rw [buildSourceDestinationIPFilter]
  by_cases hdst : destinations = []
  · have hsrc : sources ≠ [] := fun hsrc => h ⟨hsrc,hdst⟩
    rw [(clause_eq_empty_iff tight_dst).mpr hdst, combine_empty_right]
    exact tight_clause tight_src hsrc
  · exact tight_combine _ (tight_clause tight_dst hdst)

variable (L) in
theorem isExpr_sourceDestination (h : ¬(sources = [] ∧ destinations = [])) :
    IsExpr L.toGrammar (L.lex (buildSourceDestinationIPFilter ip (texts sources) (texts destinations)))
      (some (L.packets (sourceDestinationSet sources destinations))) := by
  have hsrc : bpfDirectionalHostClause ip "src" (texts sources) = "" ↔ sources = [] := clause_eq_empty_iff tight_src
  have hdst : bpfDirectionalHostClause ip "dst" (texts destinations) = "" ↔ destinations = [] :=
    clause_eq_empty_iff tight_dst
  have hexpr := isExpr_combine (fun hne => isExpr_srcClause L (hsrc.not.mp hne))
    (fun hne => isExpr_dstClause L (hdst.not.mp hne)) (by rwa [hsrc, hdst])
  simp only [ne_eq, hsrc, hdst] at hexpr
  exact hexpr

variable (L) in
theorem host_mem_clause (direction : String) {ips : List (IPText ip)} (hips : ips ≠ []) :
    Token.word "host" ∈ L.lex (bpfDirectionalHostClause ip direction (texts ips)) := by
  obtain ⟨i,rest,rfl⟩ := List.exists_cons_of_ne_nil hips
  rw [bpfDirectionalHostClause_texts, L.lex_joinTexts_or]
  have hclause : L.lex (direction ++ " host " ++ i.text) ∈
      ((texts (i :: rest)).map fun w => direction ++ " host " ++ w).map L.lex := by simp [texts]
  refine mem_joinTokens .or hclause ?_
  rw [show " host " = " " ++ "host " from rfl, ← String.append_assoc, String.append_assoc, L.lex_space,
    L.lex_host i.parsed]
  simp

variable (L) in
/-- The filter for sources and destinations has the word `host`. -/
theorem host_mem_sourceDestination (h : ¬(sources = [] ∧ destinations = [])) :
    Token.word "host" ∈ L.lex (buildSourceDestinationIPFilter ip (texts sources) (texts destinations)) := by
  rw [buildSourceDestinationIPFilter]
  by_cases hdst : destinations = []
  · have hsrc : sources ≠ [] := fun hsrc => h ⟨hsrc,hdst⟩
    rw [(clause_eq_empty_iff tight_dst).mpr hdst, combine_empty_right]
    exact host_mem_clause L "src" hsrc
  · have hhost := host_mem_clause L "dst" hdst
    by_cases hsrc : sources = []
    · rwa [(clause_eq_empty_iff tight_src).mpr hsrc, combine_empty_left]
    · rw [lex_combine L (tight_clause tight_src hsrc).ne_empty (tight_clause tight_dst hdst).ne_empty]
      simp [hhost]

/-! ## The filter of the system -/

variable (L) in
theorem exists_isExpr_obtainTcpdumpFilters {filters : Option CaptureConfigurationFilters} {text : String}
    (h : obtainTcpdumpFilters ip filters = .ok text) (hne : text ≠ "") : ∃ o, IsExpr L.toGrammar (L.lex text) o := by
  rw [obtainTcpdumpFilters] at h
  cases hmaps : parseIncludeAndExcludeFilters ip filters with
  | error e =>
    rw [hmaps] at h
    cases h
  | ok maps =>
    rw [hmaps] at h
    obtain rfl := Except.ok.inj h
    obtain ⟨hm,hm'⟩ := parseIncludeAndExcludeFilters_valid hmaps
    exact ⟨_,isExpr_tcpdumpFilters L hm hm' hne⟩

theorem obtainCaptureJobPodEnv_eq_ok {config : CaptureConfiguration} {env : JobEnv}
    (h : obtainCaptureJobPodEnv ip config = .ok env) :
    ∃ text, obtainTcpdumpFilters ip config.filters = .ok text ∧ env = filterEnv ip config text := by
  rw [obtainCaptureJobPodEnv] at h
  cases htext : obtainTcpdumpFilters ip config.filters with
  | error e =>
    rw [htext] at h
    cases h
  | ok text =>
    rw [htext] at h
    exact ⟨text,rfl,(Except.ok.inj h).symm⟩

variable (L) in
/-- The filter of the system means the same everywhere in a text, whatever the lists are. -/
theorem exists_isExpr_systemFilter {config : CaptureConfiguration} {env : JobEnv}
    (henv : obtainCaptureJobPodEnv ip config = .ok env) (pods : List (IPText ip))
    (hne : (renderJob ip .linux (texts pods) env).tcpdumpFilter ≠ "") :
    ∃ o, IsExpr L.toGrammar (L.lex (renderJob ip .linux (texts pods) env).tcpdumpFilter) o := by
  obtain ⟨text,htext,rfl⟩ := obtainCaptureJobPodEnv_eq_ok henv
  by_cases hempty : text = ""
  · exact ⟨_,isExpr_updateTcpdumpFilter L (o := none) (fun h => absurd hempty h) pods hne⟩
  · obtain ⟨o,ho⟩ := exists_isExpr_obtainTcpdumpFilters L htext hempty
    exact ⟨_,isExpr_updateTcpdumpFilter L (fun _ => ho) pods hne⟩

/-! ## The text for tcpdump -/

/-- What is joined to the filter of the system. -/
theorem captureNetworkPacket_eq_ok {env : JobEnv} {text : String} (h : captureNetworkPacket env = .ok text) :
    ∃ user, text = combineBPFFilterExpressions user env.tcpdumpFilter ∧
      (env.pcapFilter ≠ "" → user = trimSpace env.pcapFilter) := by
  rw [captureNetworkPacket] at h
  cases huser : obtainAndValidateUserFilter env.pcapFilter env.tcpdumpRawFilter with
  | error e =>
    rw [huser] at h
    cases h
  | ok user =>
    rw [huser] at h
    refine ⟨user.1,(Except.ok.inj h).symm,fun hne => ?_⟩
    have hchoose : chooseUserFilter env.pcapFilter env.tcpdumpRawFilter = (trimSpace env.pcapFilter,"pcapFilter") :=
      if_pos hne
    rw [obtainAndValidateUserFilter, hchoose] at huser
    dsimp only at huser
    split_ifs at huser
    split at huser
    · cases huser
    · rw [← Except.ok.inj huser]

theorem mem_of_mem_splitOnP {f : Char → Bool} {cs l : List Char} (hl : l ∈ cs.splitOnP f) {c : Char} (hc : c ∈ l) :
    c ∈ cs := by
  induction cs generalizing l with
  | nil =>
    rw [List.splitOnP_nil, List.mem_singleton] at hl
    rwa [hl] at hc
  | cons d cs ih =>
    rw [List.splitOnP_cons_eq_if_modifyHead] at hl
    split_ifs at hl with hd
    · rcases List.mem_cons.mp hl with rfl | hl
      · exact absurd hc List.not_mem_nil
      · exact List.mem_cons_of_mem d (ih hl hc)
    · obtain ⟨l',rest,hsplit⟩ := List.exists_cons_of_ne_nil (List.splitOnP_ne_nil f cs)
      rw [hsplit, List.modifyHead_cons] at hl
      rw [hsplit] at ih
      rcases List.mem_cons.mp hl with rfl | hl
      · rcases List.mem_cons.mp hc with rfl | hc
        · exact List.mem_cons_self
        · exact List.mem_cons_of_mem d (ih List.mem_cons_self hc)
      · exact List.mem_cons_of_mem d (ih (List.mem_cons_of_mem l' hl) hc)

/-- A text without spaces at its ends and without a hyphen is taken as it is. -/
theorem obtainAndValidateUserFilter_of_tight {s : String} (hs : Tight s) (hyphen : '-' ∉ s.toList) (raw : String) :
    obtainAndValidateUserFilter s raw = .ok (s,"pcapFilter") := by
  have hchoose : chooseUserFilter s raw = (s,"pcapFilter") := by
    rw [chooseUserFilter, if_pos hs.ne_empty, hs.trimSpace_eq]
  have hflag : (fields s).find? (fun token => token.toList.head? = some '-') = none := by
    rw [List.find?_eq_none]
    intro token htoken hhead
    obtain ⟨w,hw,rfl⟩ := List.mem_map.mp htoken
    have hmem : '-' ∈ w := by
      rw [String.toList_ofList, decide_eq_true_eq] at hhead
      exact List.mem_of_mem_head? hhead
    exact hyphen (mem_of_mem_splitOnP (List.mem_filter.mp hw).1 hmem)
  rw [obtainAndValidateUserFilter, hchoose]
  dsimp only
  rw [if_neg (fun h => hs.ne_empty h.1), hflag]

/-- Every packet matches the filter of the system, if there is one, and the sources and
destinations. -/
def Narrows (L : PcapLanguage ip P) (systemFilter : String) (sources destinations : List (IPText ip))
    (m : Set P) : Prop :=
  (systemFilter ≠ "" → ∃ s, L.Accepts systemFilter s ∧ m ⊆ s) ∧ m ⊆ L.packets (sourceDestinationSet sources destinations)

/-- A part is missing, or what the filter of the user says outside of its parentheses keeps to
the sources and destinations already. -/
def Contained (L : PcapLanguage ip P) (pcapFilter systemFilter : String) (sources destinations : List (IPText ip)) : Prop :=
  pcapFilter = "" ∨ systemFilter = "" ∨ (sources = [] ∧ destinations = []) ∨
    ∀ m c k, Escapes L.toGrammar (L.lex pcapFilter) m c k → ∀ s, L.Accepts systemFilter s →
      c.apply m (compl^[k] ∅) ∩ s ⊆ L.packets (sourceDestinationSet sources destinations)

theorem exists_system_of_accepts {user system : String} {m : Set P} (hplain : L.Plain (L.lex user))
    (hsystem : system ≠ "" → ∃ o, IsExpr L.toGrammar (L.lex system) o)
    (h : L.Accepts (combineBPFFilterExpressions user system) m) (hne : system ≠ "") :
    ∃ s, L.Accepts system s ∧ m ⊆ s := by
  rcases eq_or_ne user "" with rfl | huser
  · rw [combine_empty_left] at h
    exact ⟨m,h,subset_rfl⟩
  · obtain ⟨o,ho⟩ := hsystem hne
    obtain ⟨m₁,m₂,-,h₂,rfl⟩ := reads_of_accepts_combine huser hplain ho h
    exact ⟨m₂,h₂,Set.inter_subset_right⟩

/-- With all three parts, the sources and destinations restrict the text iff what the filter of
the user says outside of its parentheses keeps to them. -/
theorem subset_iff_escapes {user fixed system : String} {m D : Set P} {o : Option (Set P)} (huser : user ≠ "")
    (hplain : L.Plain (L.lex (combineBPFFilterExpressions user fixed)))
    (hfixed : IsExpr L.toGrammar (L.lex fixed) (some D)) (hhost : Token.word "host" ∈ L.lex fixed)
    (hsystem : IsExpr L.toGrammar (L.lex system) o)
    (h : L.Accepts (combineBPFFilterExpressions (combineBPFFilterExpressions user fixed) system) m) :
    m ⊆ D ↔ ∀ m' c k, Escapes L.toGrammar (L.lex user) m' c k → ∀ s, L.Accepts system s →
      c.apply m' (compl^[k] ∅) ∩ s ⊆ D := by
  have hlex := lex_combine L huser (PcapLanguage.ne_empty_of_isExpr hfixed)
  have hne : combineBPFFilterExpressions user fixed ≠ "" := by
    intro hempty
    rw [hempty, L.lex_empty] at hlex
    simp at hlex
  obtain ⟨m₁,m₂,h₁,h₂,rfl⟩ := reads_of_accepts_combine hne hplain hsystem h
  have hspliced : Token.lparen :: L.lex (combineBPFFilterExpressions user fixed) ++ [Token.rparen] =
      spliced (L.lex user) (L.lex fixed) := by
    rw [hlex]
    simp [spliced, spliceEnd]
  rw [hspliced] at h₁
  constructor
  · intro hsubset m' c k hescapes s hs
    obtain ⟨C,hC,rfl⟩ := hescapes.exists_subset (plain_of_combine hplain) hfixed h₁
    rw [PcapLanguage.accepts_iff hsystem] at h₂ hs
    obtain rfl := Option.some.inj (h₂.symm.trans hs)
    exact (Connective.apply_iterate_compl_inter_subset_iff hC c k).mp hsubset
  · intro hall
    by_cases hescapes : ∃ m' c k, Escapes L.toGrammar (L.lex user) m' c k
    · obtain ⟨m',c,k,hescapes⟩ := hescapes
      obtain ⟨C,hC,rfl⟩ := hescapes.exists_subset (plain_of_combine hplain) hfixed h₁
      exact (Connective.apply_iterate_compl_inter_subset_iff hC c k).mpr (hall m' c k hescapes m₂ h₂)
    · push Not at hescapes
      have hsubset := subset_of_not_escapes hfixed hhost L.host_outside (plain_of_combine hplain) hescapes h₁
      exact fun p hp => hsubset hp.1

/-- A filter that never closes two parentheses that are not its own is contained. -/
theorem contained_of_depth {pcapFilter : String} (h : ∀ us vs, L.lex pcapFilter = us ++ vs → -2 < depth us)
    (systemFilter : String) (sources destinations : List (IPText ip)) :
    Contained L pcapFilter systemFilter sources destinations :=
  Or.inr (Or.inr (Or.inr fun m c k hescapes => absurd hescapes (not_escapes_of_depth h m c k)))

end

end

/-! ## A filter that closes both parentheses -/

section
open HostLanguage

def escapingFilter : CaptureConfiguration where
  filters := none
  tcpdumpFilter := none
  pcapFilter := some "host 10.0.0.1)) or ((host 10.0.0.1"
  sourceIPs := ["10.0.0.2"]
  destinationIPs := []

def portFilter : CaptureConfiguration where
  filters := none
  tcpdumpFilter := none
  pcapFilter := some "port 80"
  sourceIPs := ["10.0.0.2"]
  destinationIPs := []

theorem obtainCaptureJobPodEnv_of_no_filters {config : CaptureConfiguration} (h : config.filters = none) (ip : IPParser) :
    obtainCaptureJobPodEnv ip config = .ok (filterEnv ip config "") := by
  rw [obtainCaptureJobPodEnv, h, obtainTcpdumpFilters_none]
  rfl

theorem isTerm_firstIP : IsTerm (hostLanguage knownParser).toGrammar [.word "host",.word "10.0.0.1"]
    (some (hostSet (.v4 0x0a000001))) :=
  (hostLanguage knownParser).isTerm_host firstIP.parsed

theorem isTerm_secondIP : IsTerm (hostLanguage knownParser).toGrammar [.word "src",.word "host",.word "10.0.0.2"]
    (some (srcHostSet (.v4 0x0a000002))) :=
  (hostLanguage knownParser).isTerm_srcHost secondIP.parsed

theorem accepts_of_lex {text : String} {ts : List Token} {m : Set Header}
    (h : IsExpr (hostLanguage knownParser).toGrammar ts (some m)) (hlex : (hostLanguage knownParser).lex text = ts) :
    (hostLanguage knownParser).Accepts text m := by
  subst hlex
  exact (PcapLanguage.accepts_iff h m).mpr rfl

end

end Retina.Capture
