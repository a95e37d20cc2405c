import Retina.Capture.Pcap

/-! # Hosts and ports alone

The part of the pcap language that has only the primitives of `PcapLanguage`, for packets that
are their header. It has all the laws of the language, with any parser of addresses.
-/
namespace Retina.Capture.HostLanguage
open FilterGrammar

def separator (c : Char) : Option (List Token) :=
  if c = '(' then some [Token.lparen] else if c = ')' then some [Token.rparen] else if c = ' ' then some [] else none

def wordToken (w : String) : Token :=
  if w = "and" then .connective .and else if w = "or" then .connective .or
  else if w = "not" then .not else .word w

def endWord (current : List Char) : List Token :=
  if current = [] then [] else [wordToken (String.ofList current)]

def scan : List Char → List Char → List Token
  | current, [] => endWord current
  | current, c :: cs =>
    match separator c with
    | some ts => endWord current ++ ts ++ scan [] cs
    | none => scan (current ++ [c]) cs

theorem scan_separator {c : Char} {ts : List Token} (hc : separator c = some ts) (current s t : List Char) :
    scan current (s ++ c :: t) = scan current s ++ ts ++ scan [] t := by
  induction s generalizing current with
  | nil => simp only [List.nil_append, scan, hc]
  | cons d s ih =>
    rw [List.cons_append, scan, scan]
    cases hd : separator d with
    | some us =>
      dsimp only
      rw [ih]
      simp only [List.append_assoc]
    | none => exact ih _

theorem scan_word {w : List Char} (h : ∀ c ∈ w, separator c = none) (current : List Char) :
    scan current w = endWord (current ++ w) := by
  induction w generalizing current with
  | nil => rw [scan, List.append_nil]
  | cons c w ih =>
    rw [scan, h c List.mem_cons_self]
    dsimp only
    rw [ih (fun d hd => h d (List.mem_cons_of_mem c hd)), List.append_assoc]
    rfl

def lex (text : String) : List Token := scan [] text.toList

theorem lex_separator {c : Char} {ts : List Token} (hc : separator c = some ts) (s t : String) :
    lex (s ++ String.ofList [c] ++ t) = lex s ++ ts ++ lex t := by
  have hlist : (s ++ String.ofList [c] ++ t).toList = s.toList ++ c :: t.toList := by simp
  rw [lex, hlist, scan_separator hc]
  rfl

/-- A text without separators is one word. -/
theorem lex_word {w : String} (hne : w.toList ≠ []) (hw : ∀ c ∈ w.toList, separator c = none) :
    lex w = [wordToken w] := by
  rw [lex, scan_word hw, List.nil_append, endWord, if_neg hne, String.ofList_toList]

/-- A text of characters that are in no separator and in no keyword. -/
theorem lex_chars {cs : List Char} (hsep : '(' ∉ cs ∧ ')' ∉ cs ∧ ' ' ∉ cs) (hkey : 'n' ∉ cs ∧ 'o' ∉ cs)
    {w : String} (hne : w.toList ≠ []) (h : ∀ c ∈ w.toList, c ∈ cs) : lex w = [Token.word w] := by
  have hnone : ∀ c ∈ w.toList, separator c = none := by
    intro c hc
    have hout : ∀ d, d ∉ cs → c ≠ d := by
      rintro d hd rfl
      exact hd (h c hc)
    rw [separator, if_neg (hout '(' hsep.1), if_neg (hout ')' hsep.2.1), if_neg (hout ' ' hsep.2.2)]
  have hand : w ≠ "and" := by
    rintro rfl
    exact hkey.1 (h 'n' (by decide))
  have hor : w ≠ "or" := by
    rintro rfl
    exact hkey.2 (h 'o' (by decide))
  have hnot : w ≠ "not" := by
    rintro rfl
    exact hkey.2 (h 'o' (by decide))
  rw [lex_word hne hnone, wordToken, if_neg hand, if_neg hor, if_neg hnot]

theorem lex_address {ip : IPParser} {w : String} {a : Address} (h : ip.parse w = some a) : lex w = [Token.word w] :=
  lex_chars (by decide) (by decide) (ip.nonempty h) (ip.chars h)

theorem lex_number {q : String} (hq : IsNumberText q) (hne : q ≠ "") : lex q = [Token.word q] :=
  lex_chars (by decide) (by decide) (fun h => hne (String.toList_eq_nil_iff.mp h)) hq

@[mk_iff primitive_iff]
inductive Primitive (ip : IPParser) : List Token → Set Header → Prop
  | host {w a} (h : ip.parse w = some a) : Primitive ip [.word "host",.word w] (hostSet a)
  | srcHost {w a} (h : ip.parse w = some a) : Primitive ip [.word "src",.word "host",.word w] (srcHostSet a)
  | dstHost {w a} (h : ip.parse w = some a) : Primitive ip [.word "dst",.word "host",.word w] (dstHostSet a)
  | port (n : UInt16) : Primitive ip [.word "port",.word (decimal n)] (portSet n)

theorem Primitive.words {ip : IPParser} {ts : List Token} {m : Set Header} (h : Primitive ip ts m) :
    ∀ t ∈ ts, ∃ w, t = Token.word w := by
  cases h <;> simp

def portMeaning (q : String) : Option (Set Header) :=
  let n := UInt16.ofNat (Nat.ofDigitChars 10 q.toList 0)
  if q = decimal n then some (portSet n) else none

theorem portMeaning_decimal (n : UInt16) : portMeaning (decimal n) = some (portSet n) := by
  have hn : UInt16.ofNat (Nat.ofDigitChars 10 (decimal n).toList 0) = n := by
    rw [decimal_toList, Nat.ofDigitChars_ten_toDigits, UInt16.ofNat_toNat]
  rw [portMeaning, hn, if_pos rfl]

theorem portMeaning_empty : portMeaning "" = none := by
  rw [portMeaning, if_neg (decimal_ne_empty _).symm]

theorem primitive_port_iff {ip : IPParser} {q : String} (hq : IsNumberText q) (m : Set Header) :
    Primitive ip (Token.word "port" :: lex q) m ↔ portMeaning q = some m := by
  constructor
  · intro h
    obtain ⟨n,hlex,rfl⟩ : ∃ n, lex q = [Token.word (decimal n)] ∧ m = portSet n := by
      simpa [primitive_iff] using h
    have hne : q ≠ "" := by
      rintro rfl
      cases hlex
    rw [lex_number hq hne, List.singleton_inj, Token.word.injEq] at hlex
    rw [hlex, portMeaning_decimal]
  · intro h
    dsimp only [portMeaning] at h
    split_ifs at h with hdecimal
    obtain rfl := Option.some.inj h
    have hlex := lex_number (isNumberText_decimal (UInt16.ofNat (Nat.ofDigitChars 10 q.toList 0))) (decimal_ne_empty _)
    rw [← hdecimal] at hlex
    rw [hlex, congrArg Token.word hdecimal]
    exact .port _

theorem Primitive.functional {ip : IPParser} {ts : List Token} {m m' : Set Header} (h : Primitive ip ts m)
    (h' : Primitive ip ts m') : m = m' := by
  cases h with
  | host h => simpa [primitive_iff, h, eq_comm] using h'
  | srcHost h => simpa [primitive_iff, h, eq_comm] using h'
  | dstHost h => simpa [primitive_iff, h, eq_comm] using h'
  | port n =>
    obtain ⟨n',hn,rfl⟩ : ∃ n', decimal n = decimal n' ∧ m' = portSet n' := by simpa [primitive_iff] using h'
    rw [decimal_injective hn]

def hostLanguage (ip : IPParser) : PcapLanguage ip Header where
  primitive _ ts m := Primitive ip ts m
  moves _ := False
  unsplit h := .words h.words
  not_negation h := by simpa using h.words
  not_group _ h := by simpa using h.words
  functional := Primitive.functional
  header := id
  header_surjective := Function.surjective_id
  lex := lex
  lex_empty := rfl
  lex_lparen s t := by
    rw [show "(" = String.ofList ['('] from rfl, lex_separator (show separator '(' = some [Token.lparen] from rfl)]
    simp
  lex_rparen s t := by
    rw [show ")" = String.ofList [')'] from rfl, lex_separator (show separator ')' = some [Token.rparen] from rfl)]
    simp
  lex_space s t := by
    rw [show " " = String.ofList [' '] from rfl, lex_separator (show separator ' ' = some [] from rfl)]
    simp
  lex_and := by decide +kernel
  lex_or := by decide +kernel
  lex_not := by decide +kernel
  lex_keyword := by decide +kernel
  lex_address := lex_address
  lex_number {q} hq t ht := by
    rcases eq_or_ne q "" with rfl | hne
    · exact absurd ht List.not_mem_nil
    · rw [lex_number hq hne, List.mem_singleton] at ht
      exact ⟨q,ht,not_false⟩
  keyword_stays _ _ := not_false
  address_stays _ := not_false
  host h b _ m := by
    constructor
    · exact fun hm => (Primitive.host h).functional hm
    · rintro rfl
      exact .host h
  srcHost h b _ m := by
    constructor
    · exact fun hm => (Primitive.srcHost h).functional hm
    · rintro rfl
      exact .srcHost h
  dstHost h b _ m := by
    constructor
    · exact fun hm => (Primitive.dstHost h).functional hm
    · rintro rfl
      exact .dstHost h
  host_outside {b us vs m} h := by
    have hus : ∀ t ∈ us, ∃ w, t = Token.word w := fun t ht => h.words t (List.mem_append_left _ ht)
    exact (Unsplit.words hus).total
  portMeaning := portMeaning
  port hq _ _ m := primitive_port_iff hq m
  portMeaning_empty := portMeaning_empty
  portMeaning_decimal := portMeaning_decimal

/-! ## A parser of three addresses -/

def knownAddresses : List (String × Address) :=
  [("10.0.0.1",.v4 0x0a000001),("10.0.0.2",.v4 0x0a000002),("2001:db8::1",.v6 0x20010db8000000000000000000000001)]

theorem knownAddresses_chars {e : String × Address} (he : e ∈ knownAddresses) :
    e.1.toList ≠ [] ∧ ∀ c ∈ e.1.toList, c ∈ addressChars := by
  have hall : (knownAddresses.all fun e =>
      !e.1.toList.isEmpty && e.1.toList.all fun c => addressChars.contains c) = true := rfl
  have hchars := List.all_eq_true.mp hall e he
  simp only [Bool.and_eq_true, Bool.not_eq_true', List.isEmpty_eq_false_iff, List.all_eq_true,
    List.contains_iff_mem] at hchars
  exact hchars

theorem mem_of_lookup {w : String} {a : Address} (h : knownAddresses.lookup w = some a) : (w,a) ∈ knownAddresses := by
  obtain ⟨l,l',hl,-⟩ := List.lookup_eq_some_iff.mp h
  rw [hl]
  exact List.mem_append_right l List.mem_cons_self

def knownParser : IPParser where
  parse w := knownAddresses.lookup w
  nonempty h := (knownAddresses_chars (mem_of_lookup h)).1
  chars h := (knownAddresses_chars (mem_of_lookup h)).2

theorem parse_firstIP : knownParser.parse "10.0.0.1" = some (.v4 0x0a000001) := rfl

def firstIP : IPText knownParser := ⟨"10.0.0.1",.v4 0x0a000001,parse_firstIP⟩

def secondIP : IPText knownParser := ⟨"10.0.0.2",.v4 0x0a000002,rfl⟩

def ipv6IP : IPText knownParser := ⟨"2001:db8::1",.v6 0x20010db8000000000000000000000001,rfl⟩

def firstToSecond : Header := some ⟨.v4 0x0a000001,.v4 0x0a000002,rfl,some (443,50000)⟩

end Retina.Capture.HostLanguage
