import Retina.Library.FilterGrammar

/-! # The filter language of tcpdump

What the filters of captures use of the pcap language: how a text is cut into tokens, and the
primitives for hosts and ports. The rest of the language is left open, with the laws of
`FilterGrammar` for its primitives. What a packet is is left open as well; it may have several
headers. A host or a port is about the first one, unless a keyword such as `vlan`, `mpls`,
`pppoes` or `geneve` stands before it and moves the place at which it looks.
-/
namespace Retina.Capture
open FilterGrammar

inductive Family
  | ipv4
  | ipv6
deriving DecidableEq

inductive Address
  | v4 (bits : BitVec 32)
  | v6 (bits : BitVec 128)
deriving DecidableEq

def Address.family : Address → Family
  | v4 _ => .ipv4
  | v6 _ => .ipv6

/-- The addresses for which `To4` is not nil: those of IPv4, and those of IPv6 that map them. -/
def Address.to4 : Address → Bool
  | v4 _ => true
  | v6 bits => bits.extractLsb' 32 96 = 0xffff#96

/-- An IP header with the ports behind it, if there are any. -/
structure Datagram where
  src : Address
  dst : Address
  sameFamily : src.family = dst.family
  ports : Option (UInt16 × UInt16)

/-- The header of a packet without an IP header is `none`. -/
abbrev Header := Option Datagram

def srcHostSet (a : Address) : Set Header := {p | ∃ d, p = some d ∧ d.src = a}

def dstHostSet (a : Address) : Set Header := {p | ∃ d, p = some d ∧ d.dst = a}

def hostSet (a : Address) : Set Header := {p | ∃ d, p = some d ∧ (d.src = a ∨ d.dst = a)}

def portSet (n : UInt16) : Set Header :=
  {p | ∃ d, p = some d ∧ ∃ ports, d.ports = some ports ∧ (ports.1 = n ∨ ports.2 = n)}

/-- The two ends are of one family. -/
theorem family_eq_of_mem_hostSet {a a' : Address} {p : Header} (h : p ∈ hostSet a) (h' : p ∈ hostSet a') :
    a.family = a'.family := by
  obtain ⟨d,rfl,hd⟩ := h
  obtain ⟨d',hp,hd'⟩ := h'
  obtain rfl := Option.some.inj hp
  have hsame := d.sameFamily
  rcases hd with rfl | rfl <;> rcases hd' with rfl | rfl
  · rfl
  · exact hsame
  · exact hsame.symm
  · rfl

/-- A header with two addresses of one family. -/
theorem exists_mem_hostSet {a a' : Address} (h : a.family = a'.family) (n : UInt16) :
    ∃ p, p ∈ hostSet a ∧ p ∈ hostSet a' ∧ p ∈ portSet n :=
  ⟨some ⟨a,a',h,some (n,n)⟩,⟨_,rfl,Or.inl rfl⟩,⟨_,rfl,Or.inr rfl⟩,⟨_,rfl,(n,n),rfl,Or.inl rfl⟩⟩

def addressChars : List Char := "0123456789abcdefABCDEF.:".toList

/-- `net.ParseIP`. Here an IPv4 address that is written as an IPv6 one stays an IPv6 address, as
it is for pcap. -/
structure IPParser where
  parse : String → Option Address
  nonempty : ∀ {w a}, parse w = some a → w.toList ≠ []
  chars : ∀ {w a}, parse w = some a → ∀ c ∈ w.toList, c ∈ addressChars

structure IPText (ip : IPParser) where
  text : String
  addr : Address
  parsed : ip.parse text = some addr

def texts {ip : IPParser} (ips : List (IPText ip)) : List String := ips.map IPText.text

def anyAddress {ip : IPParser} (f : Address → Set Header) (ips : List (IPText ip)) : Set Header :=
  {p | ∃ i ∈ ips, p ∈ f i.addr}

def decimal (n : UInt16) : String := toString n.toNat

theorem address_ne_empty {ip : IPParser} {w : String} {a : Address} (h : ip.parse w = some a) : w ≠ "" := by
  rintro rfl
  exact ip.nonempty h rfl

theorem decimal_injective {n n' : UInt16} (h : decimal n = decimal n') : n = n' :=
  UInt16.toNat_inj.mp (Nat.repr_injective h)

theorem decimal_toList (n : UInt16) : (decimal n).toList = Nat.toDigits 10 n.toNat := by
  rw [decimal, Nat.toString_eq_ofList_toDigits, String.toList_ofList]

theorem decimal_isDigit (n : UInt16) : ∀ c ∈ (decimal n).toList, c.isDigit = true := by
  intro c hc
  rw [decimal_toList] at hc
  exact Nat.isDigit_of_mem_toDigits (by norm_num) (by norm_num) hc

theorem decimal_toList_ne_nil (n : UInt16) : (decimal n).toList ≠ [] := by
  rw [decimal_toList]
  exact Nat.toDigits_ne_nil

theorem decimal_ne_empty (n : UInt16) : decimal n ≠ "" := by
  intro h
  exact decimal_toList_ne_nil n (by rw [h]; rfl)

theorem not_mem_decimal (n : UInt16) {c : Char} (hc : c.isDigit = false) : c ∉ (decimal n).toList := by
  intro h
  rw [decimal_isDigit n c h] at hc
  cases hc

def numberChars : List Char := "0123456789+-".toList

theorem mem_numberChars_of_isDigit {c : Char} (h : c.isDigit = true) : c ∈ numberChars := by
  simp only [Char.isDigit, Bool.and_eq_true, decide_eq_true_eq, ge_iff_le, UInt32.le_iff_toNat_le] at h
  obtain ⟨hlow,hhigh⟩ := h
  have hof : c = Char.ofNat c.val.toNat := c.ofNat_toNat.symm
  generalize c.val.toNat = k at hlow hhigh hof
  subst hof
  change 48 ≤ k at hlow
  change k ≤ 57 at hhigh
  interval_cases k <;> decide

def IsNumberText (q : String) : Prop := ∀ c ∈ q.toList, c ∈ numberChars

theorem isNumberText_empty : IsNumberText "" := fun _ h => absurd h List.not_mem_nil

theorem isNumberText_decimal (n : UInt16) : IsNumberText (decimal n) :=
  fun c hc => mem_numberChars_of_isDigit (decimal_isDigit n c hc)

/-- The pcap language. Its lexer finds the same addresses as `net.ParseIP`. What it takes for a
port may differ from what `strconv.Atoi` does, as for numbers with leading zeros. -/
structure PcapLanguage (ip : IPParser) (P : Type) extends Grammar P where
  header : P → Header
  header_surjective : Function.Surjective header
  lex : String → List Token
  lex_empty : lex "" = []
  lex_lparen : ∀ s t, lex (s ++ "(" ++ t) = lex s ++ Token.lparen :: lex t
  lex_rparen : ∀ s t, lex (s ++ ")" ++ t) = lex s ++ Token.rparen :: lex t
  lex_space : ∀ s t, lex (s ++ " " ++ t) = lex s ++ lex t
  lex_and : lex "and" = [Token.connective .and]
  lex_or : lex "or" = [Token.connective .or]
  lex_not : lex "not" = [Token.not]
  lex_keyword : ∀ w ∈ ["host","port","src","dst"], lex w = [Token.word w]
  lex_address : ∀ {w a}, ip.parse w = some a → lex w = [Token.word w]
  lex_number : ∀ {q}, IsNumberText q → ∀ t ∈ lex q, ∃ w, t = Token.word w ∧ ¬moves w
  keyword_stays : ∀ w ∈ ["host","port","src","dst"], ¬moves w
  address_stays : ∀ {w a}, ip.parse w = some a → ¬moves w
  host : ∀ {w a}, ip.parse w = some a → ∀ b, toGrammar.Plain b → ∀ m,
    primitive b [Token.word "host",Token.word w] m ↔ Set.preimage header (hostSet a) = m
  srcHost : ∀ {w a}, ip.parse w = some a → ∀ b, toGrammar.Plain b → ∀ m,
    primitive b [Token.word "src",Token.word "host",Token.word w] m ↔ Set.preimage header (srcHostSet a) = m
  dstHost : ∀ {w a}, ip.parse w = some a → ∀ b, toGrammar.Plain b → ∀ m,
    primitive b [Token.word "dst",Token.word "host",Token.word w] m ↔ Set.preimage header (dstHostSet a) = m
  host_outside : ∀ {b us vs m}, primitive b (us ++ Token.word "host" :: vs) m → depth us = 0
  portMeaning : String → Option (Set P)
  port : ∀ {q}, IsNumberText q → ∀ b, toGrammar.Plain b → ∀ m,
    primitive b (Token.word "port" :: lex q) m ↔ portMeaning q = some m
  portMeaning_empty : portMeaning "" = none
  portMeaning_decimal : ∀ n, portMeaning (decimal n) = some (Set.preimage header (portSet n))

def joinTexts (sep : String) : List String → String
  | [] => ""
  | [a] => a
  | a :: b :: rest => a ++ sep ++ joinTexts sep (b :: rest)

namespace PcapLanguage
variable {ip : IPParser} {P : Type} (L : PcapLanguage ip P)

/-- The packets with one of the given headers. -/
def packets (s : Set Header) : Set P := Set.preimage L.header s

theorem packets_injective {s s' : Set Header} (h : L.packets s = L.packets s') : s = s' :=
  L.header_surjective.preimage_injective h

def Accepts (text : String) (m : Set P) : Prop :=
  (L.lex text = [] ∧ m = Set.univ) ∨ (L.lex text ≠ [] ∧ Reads L.toGrammar .expr [] (L.lex text) m)

variable {L} in
theorem accepts_iff {text : String} {o : Option (Set P)} (h : IsExpr L.toGrammar (L.lex text) o)
    (m : Set P) : L.Accepts text m ↔ o = some m := by
  rw [Accepts, h.reads_iff [] plain_nil]
  simp [h.nonempty]

variable {L} in
theorem ne_empty_of_isExpr {text : String} {o : Option (Set P)} (h : IsExpr L.toGrammar (L.lex text) o) :
    text ≠ "" := by
  rintro rfl
  exact h.nonempty L.lex_empty

theorem lex_group (t : String) : L.lex ("(" ++ t ++ ")") = Token.lparen :: L.lex t ++ [Token.rparen] := by
  have hopen : L.lex ("(" ++ t) = Token.lparen :: L.lex t := by
    have h := L.lex_lparen "" t
    rwa [String.empty_append, L.lex_empty] at h
  have hclose := L.lex_rparen ("(" ++ t) ""
  rwa [String.append_empty, L.lex_empty, hopen] at hclose

theorem lex_connective (s t : String) :
    L.lex (s ++ " and " ++ t) = L.lex s ++ Token.connective .and :: L.lex t ∧
      L.lex (s ++ " or " ++ t) = L.lex s ++ Token.connective .or :: L.lex t := by
  have hand : s ++ " and " ++ t = s ++ " " ++ ("and" ++ " " ++ t) := by
    rw [show " and " = " " ++ "and" ++ " " from rfl]
    simp only [String.append_assoc]
  have hor : s ++ " or " ++ t = s ++ " " ++ ("or" ++ " " ++ t) := by
    rw [show " or " = " " ++ "or" ++ " " from rfl]
    simp only [String.append_assoc]
  rw [hand, hor, L.lex_space, L.lex_space, L.lex_space, L.lex_space, L.lex_and, L.lex_or]
  exact ⟨rfl,rfl⟩

theorem lex_joinTexts_or (texts : List String) :
    L.lex (joinTexts " or " texts) = joinTokens .or (texts.map L.lex) := by
  induction texts with
  | nil => exact L.lex_empty
  | cons a texts ih =>
    cases texts with
    | nil => rfl
    | cons b rest =>
      rw [joinTexts, (L.lex_connective a _).2, ih]
      rfl

theorem lex_host {w : String} {a : Address} (h : ip.parse w = some a) :
    L.lex ("host " ++ w) = [Token.word "host",Token.word w] := by
  rw [show "host " = "host" ++ " " from rfl, L.lex_space, L.lex_keyword "host" (by simp), L.lex_address h]
  rfl

theorem lex_port (q : String) : L.lex ("port " ++ q) = Token.word "port" :: L.lex q := by
  rw [show "port " = "port" ++ " " from rfl, L.lex_space, L.lex_keyword "port" (by simp)]
  rfl

theorem lex_negation (t : String) : L.lex ("not " ++ t) = Token.not :: L.lex t := by
  rw [show "not " = "not" ++ " " from rfl, L.lex_space, L.lex_not]
  rfl

theorem isTerm_host {w : String} {a : Address} (h : ip.parse w = some a) :
    IsTerm L.toGrammar (L.lex ("host " ++ w)) (some (L.packets (hostSet a))) := by
  rw [L.lex_host h]
  refine .words (by simp [L.keyword_stays, L.address_stays h]) (by simp) fun b hb m => ?_
  rw [L.host h b hb, Option.some_inj]
  rfl

theorem isTerm_srcHost {w : String} {a : Address} (h : ip.parse w = some a) :
    IsTerm L.toGrammar (L.lex ("src host " ++ w)) (some (L.packets (srcHostSet a))) := by
  rw [show "src host " = "src" ++ " " ++ "host " from rfl, String.append_assoc, L.lex_space,
    L.lex_keyword "src" (by simp), L.lex_host h]
  refine .words (by simp [L.keyword_stays, L.address_stays h]) (by simp) fun b hb m => ?_
  rw [Option.some_inj]
  exact L.srcHost h b hb m

theorem isTerm_dstHost {w : String} {a : Address} (h : ip.parse w = some a) :
    IsTerm L.toGrammar (L.lex ("dst host " ++ w)) (some (L.packets (dstHostSet a))) := by
  rw [show "dst host " = "dst" ++ " " ++ "host " from rfl, String.append_assoc, L.lex_space,
    L.lex_keyword "dst" (by simp), L.lex_host h]
  refine .words (by simp [L.keyword_stays, L.address_stays h]) (by simp) fun b hb m => ?_
  rw [Option.some_inj]
  exact L.dstHost h b hb m

/-- Primitives for the addresses of a list, joined by `or`. -/
theorem isExpr_joinTexts {keyword : String} {f : Address → Set Header}
    (hterm : ∀ {w a}, ip.parse w = some a → IsTerm L.toGrammar (L.lex (keyword ++ w)) (some (L.packets (f a))))
    {ips : List (IPText ip)} (hips : ips ≠ []) :
    IsExpr L.toGrammar (L.lex (joinTexts " or " ((texts ips).map fun w => keyword ++ w)))
      (some (L.packets (anyAddress f ips))) := by
  rw [L.lex_joinTexts_or, texts, List.map_map, List.map_map]
  have hexpr := isExpr_joinTokens (fun i : IPText ip => some (L.packets (f i.addr)))
    (fun i => L.lex (keyword ++ i.text)) ips (fun i _ => hterm i.parsed) hips
  rwa [anyOf_eq_some _ fun i _ => rfl] at hexpr

theorem isTerm_port {q : String} (hq : IsNumberText q) :
    IsTerm L.toGrammar (L.lex ("port " ++ q)) (L.portMeaning q) := by
  rw [lex_port]
  refine .words ?_ (List.cons_ne_nil _ _) (L.port hq)
  intro t ht
  rcases List.mem_cons.mp ht with rfl | ht
  · exact ⟨_,rfl,L.keyword_stays "port" (by simp)⟩
  · exact L.lex_number hq t ht

end PcapLanguage

end Retina.Capture
