import Retina.Capture.UserFilter

/-! # The filter of a Windows node

A netsh filter is read here from its text, as groups of addresses under a keyword: an address of
a group is enough, and all groups have to match. The filter of a Windows node has a group for
each family of the addresses in each role, and a packet is of one family only.
-/
namespace Retina.Capture
open FilterGrammar

/-! ## The filter language of netsh -/

inductive NetshKeyword
  | address
  | sourceAddress
  | destinationAddress
deriving DecidableEq

def NetshKeyword.text : NetshKeyword → String
  | address => "Address"
  | sourceAddress => "SourceAddress"
  | destinationAddress => "DestinationAddress"

def NetshKeyword.matching : NetshKeyword → Address → Set Header
  | address => hostSet
  | sourceAddress => srcHostSet
  | destinationAddress => dstHostSet

structure NetshGroup where
  family : Family
  keyword : NetshKeyword
  addresses : List Address

def familyText : Family → String
  | .ipv4 => "IPv4."
  | .ipv6 => "IPv6."

def keyText (key : Family × NetshKeyword) : String := familyText key.1 ++ key.2.text

def netshKeys : List (Family × NetshKeyword) :=
  [(.ipv4,.address),(.ipv6,.address),(.ipv4,.sourceAddress),(.ipv6,.sourceAddress),
    (.ipv4,.destinationAddress),(.ipv6,.destinationAddress)]

/-- An address of the other family matches nothing. -/
def NetshGroup.matching (g : NetshGroup) : Set Header :=
  {p | ∃ a ∈ g.addresses, a.family = g.family ∧ p ∈ g.keyword.matching a}

section
variable (ip : IPParser)

def readNetshGroup (word : List Char) : Option NetshGroup :=
  match word.splitOn '=' with
  | [key,'(' :: values] =>
    if values.getLast? = some ')' then do
      let k ← netshKeys.find? fun k => (keyText k).toList = key
      let addresses ← (values.dropLast.splitOn ',').mapM fun w => ip.parse (String.ofList w)
      some ⟨k.1,k.2,addresses⟩
    else none
  | _ => none

def readNetsh (text : String) : Option (List NetshGroup) :=
  if text = "" then some [] else (text.toList.splitOn ' ').mapM (readNetshGroup ip)

/-- A text is a filter with groups of distinct keywords that matches the given packets. -/
def NetshMatches (text : String) (m : Set Header) : Prop :=
  ∃ groups, readNetsh ip text = some groups ∧ (groups.map fun g => (g.family,g.keyword)).Nodup ∧
    m = {p | ∀ g ∈ groups, p ∈ g.matching}

end

/-! ## Joined texts -/

section
variable {sep : String}

theorem joinTexts_append {as bs : List String} (has : as ≠ []) (hbs : bs ≠ []) :
    joinTexts sep (as ++ bs) = joinTexts sep as ++ sep ++ joinTexts sep bs := by
  induction as with
  | nil => exact absurd rfl has
  | cons a as ih =>
    cases as with
    | nil =>
      obtain ⟨b,bs,rfl⟩ := List.exists_cons_of_ne_nil hbs
      rfl
    | cons a' as =>
      have hrest := ih (by simp)
      simp only [List.cons_append, joinTexts] at hrest ⊢
      rw [hrest]
      simp only [String.append_assoc]

theorem joinTexts_eq_empty_iff {as : List String} (has : ∀ a ∈ as, a ≠ "") : joinTexts sep as = "" ↔ as = [] := by
  rcases as with _ | ⟨a,_ | ⟨b,as⟩⟩
  · simp [joinTexts]
  · simpa [joinTexts] using has a List.mem_cons_self
  · simp [joinTexts, has a List.mem_cons_self]

/-- Parts that are joined again, without the empty ones. -/
theorem joinTexts_pair {as bs : List String} (has : ∀ a ∈ as, a ≠ "") (hbs : ∀ b ∈ bs, b ≠ "") :
    joinTexts sep ([joinTexts sep as,joinTexts sep bs].filter (· ≠ "")) = joinTexts sep (as ++ bs) := by
  have ha : joinTexts sep as = "" ↔ as = [] := joinTexts_eq_empty_iff has
  have hb : joinTexts sep bs = "" ↔ bs = [] := joinTexts_eq_empty_iff hbs
  by_cases hnil : as = []
  · subst hnil
    by_cases hnil' : bs = []
    · subst hnil'
      rfl
    · simp [hb, hnil', joinTexts]
  · by_cases hnil' : bs = []
    · subst hnil'
      simp [ha, hnil, joinTexts]
    · rw [joinTexts_append hnil hnil']
      simp [ha, hb, hnil, hnil', joinTexts]

theorem toList_joinTexts (c : Char) (ts : List String) :
    (joinTexts (String.ofList [c]) ts).toList = [c].intercalate (ts.map String.toList) := by
  induction ts with
  | nil => rfl
  | cons a ts ih =>
    cases ts with
    | nil => simp [joinTexts]
    | cons b rest =>
      rw [joinTexts, String.toList_append, String.toList_append, ih]
      simp [List.intercalate]

theorem not_mem_joinTexts {c : Char} {ts : List String} (hsep : c ∉ sep.toList) (hts : ∀ t ∈ ts, c ∉ t.toList) :
    c ∉ (joinTexts sep ts).toList := by
  induction ts with
  | nil => exact List.not_mem_nil
  | cons a ts ih =>
    have ha := hts a List.mem_cons_self
    cases ts with
    | nil => exact ha
    | cons b rest =>
      have hrest := ih fun t ht => hts t (List.mem_cons_of_mem a ht)
      simp [joinTexts, ha, hsep, hrest]

theorem splitOn_joinTexts {c : Char} {ts : List String} (hne : ts ≠ []) (hts : ∀ t ∈ ts, c ∉ t.toList) :
    (joinTexts (String.ofList [c]) ts).toList.splitOn c = ts.map String.toList := by
  rw [toList_joinTexts]
  apply List.splitOn_intercalate
  · intro l hl
    obtain ⟨t,ht,rfl⟩ := List.mem_map.mp hl
    exact hts t ht
  · simpa using hne

end

/-! ## The groups of a Windows node -/

section
variable {ip : IPParser}

structure NetshClause (ip : IPParser) where
  key : Family × NetshKeyword
  ips : List (IPText ip)
  nonempty : ips ≠ []

namespace NetshClause

def text (c : NetshClause ip) : String := keyText c.key ++ "=(" ++ joinTexts "," (texts c.ips) ++ ")"

def group (c : NetshClause ip) : NetshGroup := ⟨c.key.1,c.key.2,c.ips.map IPText.addr⟩

theorem find_keyText (k : Family × NetshKeyword) :
    netshKeys.find? (fun k' => (keyText k').toList = (keyText k).toList) = some k := by
  obtain ⟨f,kw⟩ := k
  cases f <;> cases kw <;> decide +kernel

/-- The characters of a key are in no separator. -/
theorem not_mem_keyText (k : Family × NetshKeyword) : '=' ∉ (keyText k).toList ∧ ' ' ∉ (keyText k).toList := by
  obtain ⟨f,kw⟩ := k
  cases f <;> cases kw <;> decide

theorem not_mem_text {c : Char} (hc : c ∉ addressChars) (i : IPText ip) : c ∉ i.text.toList :=
  fun h => hc (ip.chars i.parsed c h)

theorem mapM_parse (ips : List (IPText ip)) :
    ((texts ips).map String.toList).mapM (fun w => ip.parse (String.ofList w)) = some (ips.map IPText.addr) := by
  induction ips with
  | nil => rfl
  | cons i ips ih =>
    simp only [texts, List.map_cons] at ih ⊢
    rw [List.mapM_cons, String.ofList_toList, i.parsed, ih]
    rfl

theorem not_mem_addresses {c : Char} (hc : c ∉ addressChars) (hcomma : c ≠ ',') (ips : List (IPText ip)) :
    c ∉ (joinTexts "," (texts ips)).toList := by
  refine not_mem_joinTexts (by simpa using hcomma) ?_
  intro t ht
  obtain ⟨i,-,rfl⟩ := List.mem_map.mp ht
  exact not_mem_text hc i

/-- A printed group is read back. -/
theorem readNetshGroup_text (c : NetshClause ip) : readNetshGroup ip c.text.toList = some c.group := by
  have hsplit : c.text.toList.splitOn '=' =
      [(keyText c.key).toList,'(' :: ((joinTexts "," (texts c.ips)).toList ++ [')'])] := by
    have hlist : c.text.toList = ['='].intercalate
        [(keyText c.key).toList,'(' :: ((joinTexts "," (texts c.ips)).toList ++ [')'])] := by
      simp [text, List.intercalate]
    rw [hlist]
    apply List.splitOn_intercalate
    · intro l hl
      rcases List.mem_pair.mp hl with rfl | rfl
      · exact (not_mem_keyText c.key).1
      · simpa using not_mem_addresses (by decide) (by decide) c.ips
    · simp
  have hvalues : (joinTexts "," (texts c.ips)).toList.splitOn ',' = (texts c.ips).map String.toList := by
    apply splitOn_joinTexts
    · simpa [texts] using c.nonempty
    · intro t ht
      obtain ⟨i,-,rfl⟩ := List.mem_map.mp ht
      exact not_mem_text (by decide) i
  rw [readNetshGroup, hsplit]
  simp only [List.getLast?_append, List.getLast?_singleton, Option.some_or, if_true, List.dropLast_concat, hvalues,
    find_keyText, mapM_parse]
  rfl

theorem space_not_mem_text (c : NetshClause ip) : ' ' ∉ c.text.toList := by
  have hkey := (not_mem_keyText c.key).2
  have hjoin := not_mem_addresses (c := ' ') (by decide) (by decide) c.ips
  simp [text, hkey, hjoin]

theorem text_ne_empty (c : NetshClause ip) : c.text ≠ "" := by
  intro h
  have hlist := congrArg String.toList h
  simp [text] at hlist

end NetshClause

/-- The groups of a text are those that it was printed from. -/
theorem readNetsh_joinTexts (cs : List (NetshClause ip)) :
    readNetsh ip (joinTexts " " (cs.map NetshClause.text)) = some (cs.map NetshClause.group) := by
  have hne : ∀ t ∈ cs.map NetshClause.text, t ≠ "" := by
    intro t ht
    obtain ⟨c,-,rfl⟩ := List.mem_map.mp ht
    exact c.text_ne_empty
  rw [readNetsh]
  split_ifs with hempty
  · rw [joinTexts_eq_empty_iff hne, List.map_eq_nil_iff] at hempty
    rw [hempty]
    rfl
  · have hcs : cs.map NetshClause.text ≠ [] := fun h => hempty ((joinTexts_eq_empty_iff hne).mpr h)
    have hsplit := splitOn_joinTexts (c := ' ') hcs fun t ht => by
      obtain ⟨c,-,rfl⟩ := List.mem_map.mp ht
      exact c.space_not_mem_text
    rw [show " " = String.ofList [' '] from rfl, hsplit, List.map_map]
    clear hne hempty hcs hsplit
    induction cs with
    | nil => rfl
    | cons c cs ih =>
      rw [List.map_cons, List.mapM_cons, Function.comp_apply, c.readNetshGroup_text, ih]
      rfl

def familyClauses (key : Family × NetshKeyword) : List (IPText ip) → List (NetshClause ip)
  | [] => []
  | i :: ips => [⟨key,i :: ips,List.cons_ne_nil i ips⟩]

def roleClauses (keyword : NetshKeyword) (ips : List (IPText ip)) : List (NetshClause ip) :=
  familyClauses (.ipv4,keyword) (ips.filter fun i => i.addr.to4) ++
    familyClauses (.ipv6,keyword) (ips.filter fun i => !i.addr.to4)

def windowsClauses (pods sources destinations : List (IPText ip)) : List (NetshClause ip) :=
  roleClauses .address pods ++ (roleClauses .sourceAddress sources ++ roleClauses .destinationAddress destinations)

theorem netshGroup_texts (key : Family × NetshKeyword) (ips : List (IPText ip)) :
    netshGroup (keyText key) (texts ips) = (familyClauses key ips).map NetshClause.text := by
  cases ips <;> rfl

theorem filter_texts (f : Address → Bool) (ips : List (IPText ip)) :
    (texts ips).filter (fun w => (ip.parse w).any f) = texts (ips.filter fun i => f i.addr) := by
  rw [texts, List.filter_map]
  congr 1
  refine List.filter_congr fun i _ => ?_
  simp [i.parsed]

theorem netshAddressFilterGroup_texts (keyword : NetshKeyword) (ips : List (IPText ip)) :
    netshAddressFilterGroup ip keyword.text (texts ips) =
      joinTexts " " ((roleClauses keyword ips).map NetshClause.text) := by
  rw [netshAddressFilterGroup, filter_texts, filter_texts, roleClauses, List.map_append, ← netshGroup_texts,
    ← netshGroup_texts]
  rfl

theorem ne_empty_of_mem_map {cs : List (NetshClause ip)} : ∀ t ∈ cs.map NetshClause.text, t ≠ "" := by
  intro t ht
  obtain ⟨c,-,rfl⟩ := List.mem_map.mp ht
  exact c.text_ne_empty

def addressesOnly (sources destinations : List (IPText ip)) : CaptureConfiguration where
  filters := none
  tcpdumpFilter := none
  pcapFilter := none
  sourceIPs := texts sources
  destinationIPs := texts destinations

section
variable (pods sources destinations : List (IPText ip))

theorem renderJob_windows_netshFilter :
    (renderJob ip .windows (texts pods) (filterEnv ip (addressesOnly sources destinations) "")).netshFilter =
      joinTexts " " ((windowsClauses pods sources destinations).map NetshClause.text) := by
  have hsourceDest : buildNetshSourceDestinationIPFilter ip (texts sources) (texts destinations) = joinTexts " "
      ((roleClauses .sourceAddress sources ++ roleClauses .destinationAddress destinations).map NetshClause.text) := by
    have hsources := netshAddressFilterGroup_texts .sourceAddress sources
    have hdestinations := netshAddressFilterGroup_texts .destinationAddress destinations
    dsimp only [NetshKeyword.text] at hsources hdestinations
    rw [buildNetshSourceDestinationIPFilter, hsources, hdestinations,
      joinTexts_pair ne_empty_of_mem_map ne_empty_of_mem_map, List.map_append]
  have hfilter : joinTexts " " ([getNetshFilterWithPodIPAddress ip (texts pods),
      buildNetshSourceDestinationIPFilter ip (texts sources) (texts destinations)].filter (· ≠ "")) =
      joinTexts " " ((windowsClauses pods sources destinations).map NetshClause.text) := by
    have hpods := netshAddressFilterGroup_texts .address pods
    dsimp only [NetshKeyword.text] at hpods
    rw [getNetshFilterWithPodIPAddress, hpods, hsourceDest, joinTexts_pair ne_empty_of_mem_map ne_empty_of_mem_map,
      ← List.map_append]
    rfl
  rw [← hfilter]
  unfold renderJob
  dsimp only
  split_ifs with hempty
  · rfl
  · exact (not_ne_iff.mp hempty).symm

theorem roleClauses_keys_sublist (keyword : NetshKeyword) (ips : List (IPText ip)) :
    ((roleClauses keyword ips).map NetshClause.key).Sublist [(.ipv4,keyword),(.ipv6,keyword)] := by
  have hfamily : ∀ (key : Family × NetshKeyword) (ips : List (IPText ip)),
      ((familyClauses key ips).map NetshClause.key).Sublist [key] := by
    intro key ips
    cases ips with
    | nil => exact List.nil_sublist _
    | cons i ips => exact List.Sublist.refl _
  rw [roleClauses, List.map_append]
  exact (hfamily _ _).append (hfamily _ _)

theorem windowsClauses_keys_nodup : ((windowsClauses pods sources destinations).map NetshClause.key).Nodup := by
  have hsublist : ((windowsClauses pods sources destinations).map NetshClause.key).Sublist netshKeys := by
    rw [windowsClauses, List.map_append, List.map_append]
    exact (roleClauses_keys_sublist _ _).append ((roleClauses_keys_sublist _ _).append (roleClauses_keys_sublist _ _))
  exact hsublist.nodup (by decide)

end

/-! ## The packets of a Windows node -/

def Address.netshFamily (a : Address) : Family := if a.to4 then .ipv4 else .ipv6

theorem family_eq_of_mem_matching {keyword : NetshKeyword} {a : Address} {d : Datagram}
    (h : some d ∈ keyword.matching a) : a.family = d.src.family := by
  cases keyword with
  | address =>
    obtain ⟨d',hd,rfl | rfl⟩ := h
    · rw [Option.some.inj hd]
    · rw [Option.some.inj hd, d'.sameFamily]
  | sourceAddress =>
    obtain ⟨d',hd,rfl⟩ := h
    rw [Option.some.inj hd]
  | destinationAddress =>
    obtain ⟨d',hd,rfl⟩ := h
    rw [Option.some.inj hd, d'.sameFamily]

theorem Address.to4_iff_of_netshFamily {a : Address} {f : Family} (h : a.netshFamily = f) :
    a.to4 = true ↔ f = .ipv4 := by
  rw [← h, Address.netshFamily]
  split_ifs with hto4 <;> simp [hto4]

theorem none_notMem_matching (keyword : NetshKeyword) (a : Address) : none ∉ keyword.matching a := by
  cases keyword with
  | address => exact fun ⟨_,h,_⟩ => by cases h
  | sourceAddress => exact fun ⟨_,h,_⟩ => by cases h
  | destinationAddress => exact fun ⟨_,h,_⟩ => by cases h

theorem forall_familyClauses_iff (key : Family × NetshKeyword) (ips : List (IPText ip)) (p : Header) :
    (∀ c ∈ familyClauses key ips, p ∈ c.group.matching) ↔
      (ips ≠ [] → ∃ i ∈ ips, i.addr.family = key.1 ∧ p ∈ key.2.matching i.addr) := by
  cases ips with
  | nil => simp [familyClauses]
  | cons i ips => simp [familyClauses, NetshClause.group, NetshGroup.matching]

/-- The groups of a role match a packet if the role has no addresses for the other family's group,
and one of its addresses matches. -/
theorem forall_roleClauses_iff (keyword : NetshKeyword) (ips : List (IPText ip)) (d : Datagram) :
    (∀ c ∈ roleClauses keyword ips, some d ∈ c.group.matching) ↔
      (∀ i ∈ ips, i.addr.netshFamily = d.src.family) ∧ (ips ≠ [] → some d ∈ anyAddress keyword.matching ips) := by
  have hne : ∀ f : IPText ip → Bool, ips.filter f ≠ [] ↔ ∃ i ∈ ips, f i = true := by
    intro f
    rw [Ne, List.filter_eq_nil_iff]
    push Not
    rfl
  rw [roleClauses, List.forall_mem_append, forall_familyClauses_iff, forall_familyClauses_iff, hne, hne]
  simp only [List.mem_filter]
  constructor
  · rintro ⟨h4,h6⟩
    have hfamily : ∀ i ∈ ips, i.addr.netshFamily = d.src.family := by
      intro i hi
      unfold Address.netshFamily
      split_ifs with hto4
      · obtain ⟨j,-,hj,hp⟩ := h4 ⟨i,hi,hto4⟩
        rw [← hj, family_eq_of_mem_matching hp]
      · obtain ⟨j,-,hj,hp⟩ := h6 ⟨i,hi,by simp [hto4]⟩
        rw [← hj, family_eq_of_mem_matching hp]
    refine ⟨hfamily,fun hips => ?_⟩
    obtain ⟨i,rest,rfl⟩ := List.exists_cons_of_ne_nil hips
    cases hto4 : i.addr.to4 with
    | true =>
      obtain ⟨j,hj,-,hp⟩ := h4 ⟨i,List.mem_cons_self,hto4⟩
      exact ⟨j,hj.1,hp⟩
    | false =>
      obtain ⟨j,hj,-,hp⟩ := h6 ⟨i,List.mem_cons_self,by simp [hto4]⟩
      exact ⟨j,hj.1,hp⟩
  · rintro ⟨hfamily,hmatch⟩
    have hto4 : ∀ i ∈ ips, i.addr.to4 = true ↔ d.src.family = .ipv4 :=
      fun i hi => Address.to4_iff_of_netshFamily (hfamily i hi)
    constructor
    · rintro ⟨i,hi,hi4⟩
      obtain ⟨j,hj,hp⟩ := hmatch (List.ne_nil_of_mem hi)
      have hd := (hto4 i hi).mp hi4
      exact ⟨j,⟨hj,(hto4 j hj).mpr hd⟩,(family_eq_of_mem_matching hp).trans hd,hp⟩
    · rintro ⟨i,hi,hi6⟩
      obtain ⟨j,hj,hp⟩ := hmatch (List.ne_nil_of_mem hi)
      have hd : d.src.family ≠ .ipv4 := fun hd => by simp [(hto4 i hi).mpr hd] at hi6
      have hj6 : j.addr.to4 = false := by
        rw [Bool.eq_false_iff, Ne, hto4 j hj]
        exact hd
      refine ⟨j,⟨hj,by simp [hj6]⟩,?_,hp⟩
      rw [family_eq_of_mem_matching hp]
      cases hfamily : d.src.family with
      | ipv4 => exact absurd hfamily hd
      | ipv6 => rfl

theorem none_forall_roleClauses_iff (keyword : NetshKeyword) (ips : List (IPText ip)) :
    (∀ c ∈ roleClauses keyword ips, none ∈ c.group.matching) ↔ ips = [] := by
  constructor
  · intro h
    by_contra hips
    obtain ⟨i,rest,rfl⟩ := List.exists_cons_of_ne_nil hips
    rw [roleClauses, List.forall_mem_append, forall_familyClauses_iff, forall_familyClauses_iff] at h
    cases hto4 : i.addr.to4 with
    | true =>
      obtain ⟨j,-,-,hp⟩ := h.1 (by simp [hto4])
      exact none_notMem_matching _ _ hp
    | false =>
      obtain ⟨j,-,-,hp⟩ := h.2 (by simp [hto4])
      exact none_notMem_matching _ _ hp
  · rintro rfl c hc
    exact absurd hc List.not_mem_nil

theorem none_imp_anyAddress_iff (keyword : NetshKeyword) (ips : List (IPText ip)) :
    (ips ≠ [] → none ∈ anyAddress keyword.matching ips) ↔ ips = [] := by
  constructor
  · intro h
    by_contra hips
    obtain ⟨i,-,hp⟩ := h hips
    exact none_notMem_matching _ _ hp
  · exact fun h hips => absurd h hips

section
variable (pods sources destinations : List (IPText ip))

def linuxSet : Set Header :=
  {p | (pods ≠ [] → p ∈ anyAddress hostSet pods) ∧ p ∈ sourceDestinationSet sources destinations}

def windowsSet : Set Header := {p | ∀ c ∈ windowsClauses pods sources destinations, p ∈ c.group.matching}

theorem some_mem_windowsSet_iff (d : Datagram) :
    some d ∈ windowsSet pods sources destinations ↔ some d ∈ linuxSet pods sources destinations ∧
      ∀ i ∈ pods ++ (sources ++ destinations), i.addr.netshFamily = d.src.family := by
  simp only [windowsSet, windowsClauses, Set.mem_ofPred_eq, List.forall_mem_append, forall_roleClauses_iff]
  constructor
  · rintro ⟨⟨hpods,hmatch⟩,⟨hsources,hsrc⟩,⟨hdestinations,hdst⟩⟩
    exact ⟨⟨hmatch,hsrc,hdst⟩,hpods,hsources,hdestinations⟩
  · rintro ⟨⟨hmatch,hsrc,hdst⟩,hpods,hsources,hdestinations⟩
    exact ⟨⟨hpods,hmatch⟩,⟨hsources,hsrc⟩,⟨hdestinations,hdst⟩⟩

theorem none_mem_windowsSet_iff :
    none ∈ windowsSet pods sources destinations ↔ none ∈ linuxSet pods sources destinations := by
  simp only [windowsSet, windowsClauses, Set.mem_ofPred_eq, List.forall_mem_append, none_forall_roleClauses_iff]
  have hpods := none_imp_anyAddress_iff .address pods
  have hsources := none_imp_anyAddress_iff .sourceAddress sources
  have hdestinations := none_imp_anyAddress_iff .destinationAddress destinations
  exact (and_congr hpods (and_congr hsources hdestinations)).symm

/-- The filter of a Linux node matches packets of the family: each given role has addresses of the
family, and if all three are given, a pod is one of the sources or destinations. -/
structure Meets (family : Family) : Prop where
  pod : pods ≠ [] → ∃ i ∈ pods, i.addr.family = family
  source : sources ≠ [] → ∃ i ∈ sources, i.addr.family = family
  destination : destinations ≠ [] → ∃ i ∈ destinations, i.addr.family = family
  common : pods ≠ [] → sources ≠ [] → destinations ≠ [] →
    ∃ i ∈ pods, i.addr.family = family ∧ ∃ j ∈ sources ++ destinations, j.addr = i.addr

/-- All addresses are in the groups of a family for which the Linux filter matches packets. -/
def OneFamily : Prop :=
  ∀ family, Meets pods sources destinations family →
    ∀ i ∈ pods ++ (sources ++ destinations), i.addr.netshFamily = family

end

theorem exists_addr_of_family (ips : List (IPText ip)) {family : Family}
    (h : ips ≠ [] → ∃ i ∈ ips, i.addr.family = family) :
    ∃ a : Address, a.family = family ∧ (ips ≠ [] → ∃ i ∈ ips, i.addr = a) := by
  by_cases hips : ips = []
  · cases family with
    | ipv4 => exact ⟨.v4 0,rfl,fun h => absurd hips h⟩
    | ipv6 => exact ⟨.v6 0,rfl,fun h => absurd hips h⟩
  · obtain ⟨i,hi,hfamily⟩ := h hips
    exact ⟨i.addr,hfamily,fun _ => ⟨i,hi,rfl⟩⟩

section
variable {pods sources destinations : List (IPText ip)}

/-- A packet from and to given addresses. -/
theorem mem_linuxSet_of_addresses {d : Datagram} (hsrc : sources ≠ [] → ∃ i ∈ sources, i.addr = d.src)
    (hdst : destinations ≠ [] → ∃ i ∈ destinations, i.addr = d.dst)
    (hpod : pods ≠ [] → ∃ i ∈ pods, i.addr = d.src ∨ i.addr = d.dst) :
    some d ∈ linuxSet pods sources destinations := by
  refine ⟨fun h => ?_,fun h => ?_,fun h => ?_⟩
  · obtain ⟨i,hi,haddr⟩ := hpod h
    exact ⟨i,hi,d,rfl,haddr.imp Eq.symm Eq.symm⟩
  · obtain ⟨i,hi,haddr⟩ := hsrc h
    exact ⟨i,hi,d,rfl,haddr.symm⟩
  · obtain ⟨i,hi,haddr⟩ := hdst h
    exact ⟨i,hi,d,rfl,haddr.symm⟩

theorem meets_of_mem_linuxSet {d : Datagram} (h : some d ∈ linuxSet pods sources destinations) :
    Meets pods sources destinations d.src.family := by
  obtain ⟨hpods,hsources,hdestinations⟩ := h
  refine ⟨fun hne => ?_,fun hne => ?_,fun hne => ?_,fun hp hs hd => ?_⟩
  · obtain ⟨i,hi,hmem⟩ := hpods hne
    exact ⟨i,hi,family_eq_of_mem_matching (show some d ∈ NetshKeyword.address.matching i.addr from hmem)⟩
  · obtain ⟨i,hi,hmem⟩ := hsources hne
    exact ⟨i,hi,family_eq_of_mem_matching (show some d ∈ NetshKeyword.sourceAddress.matching i.addr from hmem)⟩
  · obtain ⟨i,hi,hmem⟩ := hdestinations hne
    exact ⟨i,hi,family_eq_of_mem_matching (show some d ∈ NetshKeyword.destinationAddress.matching i.addr from hmem)⟩
  · obtain ⟨i,hi,hmem⟩ := hpods hp
    have hfamily := family_eq_of_mem_matching (show some d ∈ NetshKeyword.address.matching i.addr from hmem)
    obtain ⟨j,hj,_,hd₁,hjaddr⟩ := hsources hs
    obtain ⟨k,hk,_,hd₂,hkaddr⟩ := hdestinations hd
    obtain ⟨_,hd₃,haddr⟩ := hmem
    obtain rfl := Option.some.inj hd₁
    obtain rfl := Option.some.inj hd₂
    obtain rfl := Option.some.inj hd₃
    rcases haddr with haddr | haddr
    · exact ⟨i,hi,hfamily,j,List.mem_append_left _ hj,hjaddr.symm.trans haddr⟩
    · exact ⟨i,hi,hfamily,k,List.mem_append_right _ hk,hkaddr.symm.trans haddr⟩

/-- If the roles can meet in a family, they do so in some packet of it. -/
theorem Meets.exists_mem_linuxSet {family : Family} (h : Meets pods sources destinations family) :
    ∃ d, some d ∈ linuxSet pods sources destinations ∧ d.src.family = family := by
  obtain ⟨a,ha,hpod⟩ := exists_addr_of_family pods h.pod
  obtain ⟨b,hb,hsource⟩ := exists_addr_of_family sources h.source
  obtain ⟨c,hc,hdestination⟩ := exists_addr_of_family destinations h.destination
  by_cases hp : pods = []
  · refine ⟨⟨b,c,hb.trans hc.symm,none⟩,mem_linuxSet_of_addresses hsource hdestination ?_,hb⟩
    exact fun hne => absurd hp hne
  by_cases hs : sources = []
  · refine ⟨⟨a,c,ha.trans hc.symm,none⟩,mem_linuxSet_of_addresses ?_ hdestination ?_,ha⟩
    · exact fun hne => absurd hs hne
    · obtain ⟨i,hi,haddr⟩ := hpod hp
      exact fun _ => ⟨i,hi,Or.inl haddr⟩
  by_cases hd : destinations = []
  · refine ⟨⟨b,a,hb.trans ha.symm,none⟩,mem_linuxSet_of_addresses hsource ?_ ?_,hb⟩
    · exact fun hne => absurd hd hne
    · obtain ⟨i,hi,haddr⟩ := hpod hp
      exact fun _ => ⟨i,hi,Or.inr haddr⟩
  obtain ⟨i,hi,hfamily,j,hj,haddr⟩ := h.common hp hs hd
  rcases List.mem_append.mp hj with hj | hj
  · refine ⟨⟨i.addr,c,hfamily.trans hc.symm,none⟩,mem_linuxSet_of_addresses ?_ hdestination ?_,hfamily⟩
    · exact fun _ => ⟨j,hj,haddr⟩
    · exact fun _ => ⟨i,hi,Or.inl rfl⟩
  · refine ⟨⟨b,i.addr,hb.trans hfamily.symm,none⟩,mem_linuxSet_of_addresses hsource ?_ ?_,hb⟩
    · exact fun _ => ⟨j,hj,haddr⟩
    · exact fun _ => ⟨i,hi,Or.inr rfl⟩

/-- The two sets are the same iff no packet that the Linux filter matches is lost to a group of the
other family. -/
theorem linuxSet_eq_windowsSet_iff :
    linuxSet pods sources destinations = windowsSet pods sources destinations ↔ OneFamily pods sources destinations := by
  constructor
  · intro h family hmeets
    obtain ⟨d,hd,rfl⟩ := hmeets.exists_mem_linuxSet
    rw [h, some_mem_windowsSet_iff] at hd
    exact hd.2
  · intro h
    ext p
    cases p with
    | none => exact (none_mem_windowsSet_iff pods sources destinations).symm
    | some d =>
      rw [some_mem_windowsSet_iff]
      exact ⟨fun hd => ⟨hd,h _ (meets_of_mem_linuxSet hd)⟩,fun hd => hd.1⟩

/-! ## The filters of both nodes -/

variable (pods sources destinations) in
theorem netshMatches_iff (m : Set Header) :
    NetshMatches ip (renderJob ip .windows (texts pods) (filterEnv ip (addressesOnly sources destinations) "")).netshFilter m ↔
      windowsSet pods sources destinations = m := by
  have hset : {p | ∀ g ∈ (windowsClauses pods sources destinations).map NetshClause.group, p ∈ g.matching} =
      windowsSet pods sources destinations := by
    ext p
    simp [windowsSet]
  rw [NetshMatches, renderJob_windows_netshFilter, readNetsh_joinTexts]
  constructor
  · rintro ⟨groups,hgroups,-,rfl⟩
    obtain rfl := Option.some.inj hgroups
    exact hset.symm
  · rintro rfl
    refine ⟨_,rfl,?_,hset.symm⟩
    rw [List.map_map]
    exact windowsClauses_keys_nodup pods sources destinations

theorem hyphen_not_mem_clause {direction : String} (hdirection : '-' ∉ direction.toList) (ips : List (IPText ip)) :
    '-' ∉ (bpfDirectionalHostClause ip direction (texts ips)).toList := by
  rw [bpfDirectionalHostClause_texts]
  refine not_mem_joinTexts (by decide) ?_
  intro t ht
  obtain ⟨w,hw,rfl⟩ := List.mem_map.mp ht
  obtain ⟨i,-,rfl⟩ := List.mem_map.mp hw
  simp [hdirection, NetshClause.not_mem_text (show '-' ∉ addressChars by decide) i]

theorem hyphen_not_mem_combine {a b : String} (ha : '-' ∉ a.toList) (hb : '-' ∉ b.toList) :
    '-' ∉ (combineBPFFilterExpressions a b).toList := by
  unfold combineBPFFilterExpressions
  split_ifs
  · simp [ha, hb]
  · exact ha
  · exact hb
  · exact List.not_mem_nil

/-- The text for tcpdump has the sources and destinations, and the pods. -/
theorem captureNetworkPacket_addresses :
    captureNetworkPacket (renderJob ip .linux (texts pods) (filterEnv ip (addressesOnly sources destinations) "")) =
      .ok (combineBPFFilterExpressions (buildSourceDestinationIPFilter ip (texts sources) (texts destinations))
        (updateTcpdumpFilterWithPodIPAddress (texts pods) "")) := by
  have huser : ∃ source, obtainAndValidateUserFilter
      (buildSourceDestinationIPFilter ip (texts sources) (texts destinations)) "" =
        .ok (buildSourceDestinationIPFilter ip (texts sources) (texts destinations),source) := by
    by_cases hnone : sources = [] ∧ destinations = []
    · obtain ⟨rfl,rfl⟩ := hnone
      exact ⟨"",rfl⟩
    · refine ⟨"pcapFilter",obtainAndValidateUserFilter_of_tight (tight_sourceDestination hnone) ?_ ""⟩
      exact hyphen_not_mem_combine (hyphen_not_mem_clause (by decide) sources)
        (hyphen_not_mem_clause (by decide) destinations)
  have hpcap : (renderJob ip .linux (texts pods) (filterEnv ip (addressesOnly sources destinations) "")).pcapFilter =
      buildSourceDestinationIPFilter ip (texts sources) (texts destinations) := combine_empty_left _
  obtain ⟨source,hsource⟩ := huser
  rw [captureNetworkPacket, hpcap]
  exact congrArg (· >>= fun userFilter => Except.ok (combineFilters userFilter.1 _)) hsource

theorem sourceDestination_eq_empty_iff : buildSourceDestinationIPFilter ip (texts sources) (texts destinations) = "" ↔
    sources = [] ∧ destinations = [] := by
  constructor
  · intro h
    by_contra hnone
    exact (tight_sourceDestination hnone).ne_empty h
  · rintro ⟨rfl,rfl⟩
    rfl

theorem podsOnly_eq_empty_iff : updateTcpdumpFilterWithPodIPAddress (texts pods) "" = "" ↔ pods = [] := by
  cases pods with
  | nil => simp [updateTcpdumpFilterWithPodIPAddress, texts]
  | cons i pods => simp [updateTcpdumpFilterWithPodIPAddress, texts, podFilterGroup_ne_empty]

variable (pods sources destinations) in
theorem accepts_addresses_iff {P : Type} (L : PcapLanguage ip P) (m : Set P) :
    L.Accepts (combineBPFFilterExpressions (buildSourceDestinationIPFilter ip (texts sources) (texts destinations))
      (updateTcpdumpFilterWithPodIPAddress (texts pods) "")) m ↔
        L.packets (linuxSet pods sources destinations) = m := by
  have hset : {p | (buildSourceDestinationIPFilter ip (texts sources) (texts destinations) ≠ "" →
        p ∈ L.packets (sourceDestinationSet sources destinations)) ∧
      (updateTcpdumpFilterWithPodIPAddress (texts pods) "" ≠ "" → p ∈ L.packets (anyAddress hostSet pods))} =
      L.packets (linuxSet pods sources destinations) := by
    ext p
    simp only [ne_eq, sourceDestination_eq_empty_iff, podsOnly_eq_empty_iff, Set.mem_ofPred_eq, linuxSet, PcapLanguage.packets, Set.mem_preimage]
    rw [and_comm]
    refine and_congr_right fun _ => ?_
    by_cases hnone : sources = [] ∧ destinations = []
    · simp [sourceDestinationSet, hnone]
    · simp only [hnone, not_false_eq_true, true_imp_iff]
  by_cases hempty : pods = [] ∧ sources = [] ∧ destinations = []
  · obtain ⟨rfl,rfl,rfl⟩ := hempty
    have hall : L.packets (linuxSet ([] : List (IPText ip)) [] []) = Set.univ := by
      simp [linuxSet, sourceDestinationSet, PcapLanguage.packets]
    rw [podsOnly_eq_empty_iff.mpr rfl, sourceDestination_eq_empty_iff.mpr ⟨rfl,rfl⟩, combine_empty_left, PcapLanguage.Accepts, L.lex_empty, hall]
    simp [eq_comm]
  · have hgroup : updateTcpdumpFilterWithPodIPAddress (texts pods) "" ≠ "" →
        IsExpr L.toGrammar (L.lex (updateTcpdumpFilterWithPodIPAddress (texts pods) ""))
          (some (L.packets (anyAddress hostSet pods))) := by
      intro hne
      have hpod := podsOnly_eq_empty_iff.not.mp hne
      rw [updateTcpdumpFilterWithPodIPAddress, if_neg (by simpa [texts] using hpod), if_pos rfl]
      exact (isTerm_podFilterGroup L hpod).expr
    have hsome : ¬(buildSourceDestinationIPFilter ip (texts sources) (texts destinations) = "" ∧
        updateTcpdumpFilterWithPodIPAddress (texts pods) "" = "") := by
      rw [sourceDestination_eq_empty_iff, podsOnly_eq_empty_iff]
      exact fun h => hempty ⟨h.2,h.1⟩
    have hexpr := isExpr_combine
      (fun hne => isExpr_sourceDestination L (sourceDestination_eq_empty_iff.not.mp hne)) hgroup hsome
    rw [hset] at hexpr
    rw [PcapLanguage.accepts_iff hexpr, Option.some_inj]

/-- The filters of a Linux and of a Windows node for the same addresses match the same packets iff
all addresses are in the groups of one family, as far as the Linux filter matches anything. -/
theorem linux_windows_same_packets_iff {P : Type} (L : PcapLanguage ip P) (pods sources destinations : List (IPText ip)) :
    ∃ env text, obtainCaptureJobPodEnv ip (addressesOnly sources destinations) = .ok env ∧
      captureNetworkPacket (renderJob ip .linux (texts pods) env) = .ok text ∧
      (∃ m, L.Accepts text m) ∧ (∃ m, NetshMatches ip (renderJob ip .windows (texts pods) env).netshFilter m) ∧
      ((∀ m m', L.Accepts text m → NetshMatches ip (renderJob ip .windows (texts pods) env).netshFilter m' →
          m = L.packets m') ↔
        OneFamily pods sources destinations) := by
  have henv := obtainCaptureJobPodEnv_of_no_filters (show (addressesOnly sources destinations).filters = none from rfl) ip
  refine ⟨_,_,henv,captureNetworkPacket_addresses,?_,?_,?_⟩
  · exact ⟨_,(accepts_addresses_iff pods sources destinations L _).mpr rfl⟩
  · exact ⟨_,(netshMatches_iff pods sources destinations _).mpr rfl⟩
  · rw [← linuxSet_eq_windowsSet_iff]
    simp only [accepts_addresses_iff, netshMatches_iff]
    constructor
    · exact fun h => L.packets_injective (h _ _ rfl rfl)
    · rintro h m m' rfl rfl
      rw [h]

end

end

/-! ## Pods of both families -/

section
open HostLanguage

/-- With one pod address of each family, the Windows filter matches nothing. -/
theorem dualStackPod_differs :
    ∃ env, obtainCaptureJobPodEnv knownParser (addressesOnly ([] : List (IPText knownParser)) []) = .ok env ∧
      (renderJob knownParser .windows ["10.0.0.2","2001:db8::1"] env).netshFilter =
        "IPv4.Address=(10.0.0.2) IPv6.Address=(2001:db8::1)" ∧
      captureNetworkPacket (renderJob knownParser .linux ["10.0.0.2","2001:db8::1"] env) =
        .ok "(host 10.0.0.2 or host 2001:db8::1)" ∧
      (∃ m, (hostLanguage knownParser).Accepts "(host 10.0.0.2 or host 2001:db8::1)" m ∧ firstToSecond ∈ m) ∧
      ∃ m, NetshMatches knownParser "IPv4.Address=(10.0.0.2) IPv6.Address=(2001:db8::1)" m ∧ firstToSecond ∉ m := by
  have hlinux := accepts_addresses_iff [secondIP,ipv6IP] [] [] (hostLanguage knownParser)
  have hwindows := netshMatches_iff [secondIP,ipv6IP] [] []
  refine ⟨_,obtainCaptureJobPodEnv_of_no_filters rfl knownParser,rfl,rfl,⟨_,(hlinux _).mpr rfl,?_⟩,_,
    (hwindows _).mpr rfl,?_⟩
  · refine mem_linuxSet_of_addresses (fun h => absurd rfl h) (fun h => absurd rfl h) fun _ => ?_
    exact ⟨secondIP,List.mem_cons_self,Or.inr rfl⟩
  · intro h
    have hfamily := ((some_mem_windowsSet_iff _ _ _ _).mp h).2 ipv6IP (by simp)
    exact absurd hfamily (by decide)

end

end Retina.Capture
