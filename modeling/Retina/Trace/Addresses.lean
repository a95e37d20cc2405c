import Retina.Library.AddressPrefix

/-! # Addresses of trace filters

`ValidateFilterIP` and `ValidateFilterCIDR` of `cli/cmd/bpftrace.go`, over the part of Go's `net`
that they and the script generator use: `net.IP` as its bytes, `To4`, `Mask`, `ParseIP`,
`ParseCIDR` and `IPNet.Contains`. The reader of a single address, `netip.ParseAddr`, is a
parameter.
-/
namespace Retina.Trace
open AddressPrefix

structure IPv4 where
  b0 : UInt8
  b1 : UInt8
  b2 : UInt8
  b3 : UInt8
deriving DecidableEq

def IPv4.bytes (a : IPv4) : List UInt8 := [a.b0,a.b1,a.b2,a.b3]

/-- `net.IP`. The one without bytes is `nil`. -/
abbrev IP := List UInt8

def v4InV6Prefix : List UInt8 := [0,0,0,0,0,0,0,0,0,0,0xff,0xff]

def quad : List UInt8 → Option IPv4
  | [b0,b1,b2,b3] => some ⟨b0,b1,b2,b3⟩
  | _ => none

def to4 (ip : IP) : Option IPv4 :=
  if ip.length = 4 then quad ip
  else if ip.length = 16 ∧ ip.take 12 = v4InV6Prefix then quad (ip.drop 12)
  else none

def nilOr (a : Option IPv4) : IP := a.elim [] IPv4.bytes

def maskIP (ip : IP) (m : List UInt8) : IP :=
  let m := if m.length = 16 ∧ ip.length = 4 ∧ (m.take 12).all (· == 0xff) then m.drop 12 else m
  let ip := if m.length = 4 ∧ ip.length = 16 ∧ ip.take 12 = v4InV6Prefix then ip.drop 12 else ip
  if ip.length = m.length then masked m ip else []

/-- `netip.Addr`. Only addresses of sixteen bytes can have a zone. -/
inductive Addr
  | v4 (a : IPv4)
  | v6 (bytes : {bytes : List UInt8 // bytes.length = 16}) (zone : String)
deriving DecidableEq

namespace Addr

def zone : Addr → String
  | v4 _ => ""
  | v6 _ zone => zone

def bitLen : Addr → ℕ
  | v4 _ => 32
  | v6 _ _ => 128

def as16 : Addr → IP
  | v4 a => v4InV6Prefix ++ a.bytes
  | v6 bytes _ => bytes

end Addr

structure IPNet where
  ip : IP
  mask : List UInt8
deriving DecidableEq

/-- `networkNumberAndMask`, where lengths that do not fit give nothing. -/
def IPNet.networkNumberAndMask (n : IPNet) : Option (IP × List UInt8) :=
  let ip := (to4 n.ip).elim n.ip IPv4.bytes
  if n.mask.length = 4 ∧ ip.length = 4 then some (ip,n.mask)
  else if n.mask.length = 16 ∧ ip.length = 4 then some (ip,n.mask.drop 12)
  else if n.mask.length = 16 ∧ ip.length = 16 then some (ip,n.mask)
  else none

def IPNet.contains (n : IPNet) (ip : IP) : Bool :=
  let ip := (to4 ip).elim ip IPv4.bytes
  match n.networkNumberAndMask with
  | none => false
  | some (nn,m) => ip.length == nn.length && masked m nn == masked m ip

/-- `dtoi`, which stops at `0xFFFFFF`. A text with another character is refused by its caller. -/
def dtoiFrom (n : ℕ) : List Char → Option ℕ
  | [] => some n
  | c :: cs =>
    let n := n * 10 + (c.toNat - '0'.toNat)
    if c.isDigit = false then none else if 0xFFFFFF ≤ n then none else dtoiFrom n cs

def dtoi (s : List Char) : Option ℕ := if s = [] then none else dtoiFrom 0 s

def cutSlash (s : String) : Option (String × List Char) :=
  match s.toList.dropWhile (· ≠ '/') with
  | [] => none
  | _ :: after => some (String.ofList (s.toList.takeWhile (· ≠ '/')),after)

inductive FilterError
  | invalidIP (input : String)
  | ipv6NotSupported (input : String)
  | invalidCIDR (input : String)
deriving DecidableEq

/-- The text of the error, with `%q` as a parameter. -/
def FilterError.text (quote : String → String) : FilterError → String
  | invalidIP input => "invalid IP address: " ++ quote input
  | ipv6NotSupported input => "IPv6 is not supported, please provide an IPv4 address: " ++ quote input
  | invalidCIDR input => "invalid CIDR notation: " ++ quote input ++ ": invalid CIDR address: " ++ input

section Parsing
variable (parseAddr : String → Option Addr)

def parseIP (s : String) : IP :=
  match parseAddr s with
  | none => []
  | some a => if a.zone = "" then a.as16 else []

def parseCIDR (s : String) : Option IPNet := do
  let (addr,ones) ← cutSlash s
  let a ← parseAddr addr
  guard (a.zone = "")
  let n ← dtoi ones
  guard (n ≤ a.bitLen)
  let m := mask n (a.bitLen / 8)
  return ⟨maskIP a.as16 m,m⟩

def validateFilterIP (input : String) : Except FilterError IP :=
  if input = "" then .ok []
  else
    let ip := parseIP parseAddr input
    if ip = [] then .error (.invalidIP input)
    else if to4 ip = none then .error (.ipv6NotSupported input)
    else .ok ip

/-- The empty text is no filter, a `nil` pointer. -/
def validateFilterCIDR (input : String) : Except FilterError (Option IPNet) :=
  if input = "" then .ok none
  else
    match parseCIDR parseAddr input with
    | none => .error (.invalidCIDR input)
    | some ipnet => .ok (some ipnet)

end Parsing

/-! ## What the parsers return -/

@[simp] theorem IPv4.bytes_length (a : IPv4) : a.bytes.length = 4 := rfl

@[simp] theorem quad_bytes (a : IPv4) : quad a.bytes = some a := rfl

theorem IPv4.bytes_injective : Function.Injective IPv4.bytes := by
  intro a b h
  have hquad := congrArg quad h
  rwa [quad_bytes, quad_bytes, Option.some.injEq] at hquad

theorem eq_bytes_of_quad {bytes : List UInt8} {a : IPv4} (h : quad bytes = some a) : bytes = a.bytes := by
  unfold quad at h
  split at h
  · cases h
    rfl
  · cases h

theorem exists_eq_bytes {bytes : List UInt8} (h : bytes.length = 4) : ∃ a : IPv4, bytes = a.bytes := by
  match bytes, h with
  | [b0,b1,b2,b3], _ => exact ⟨⟨b0,b1,b2,b3⟩,rfl⟩

@[simp] theorem to4_bytes (a : IPv4) : to4 a.bytes = some a := rfl

@[simp] theorem to4_as16_v4 (a : IPv4) : to4 (v4InV6Prefix ++ a.bytes) = some a := rfl

theorem to4_sixteen {ip : IP} (h : ip.length = 16) :
    to4 ip = if ip.take 12 = v4InV6Prefix then quad (ip.drop 12) else none := by
  rw [to4, if_neg (by omega)]
  simp only [h, true_and]

/-- A mask of sixteen bytes is no mapped address: its zeros come last. -/
theorem to4_mask_sixteen (n : ℕ) : to4 (mask n 16) = none := by
  rw [to4_sixteen (mask_length n 16), if_neg]
  intro h
  have hhead : maskByte n = 0 := (List.cons.inj h).1
  rcases Nat.eq_zero_or_pos n with rfl | hn
  · exact absurd h (by decide)
  · exact maskByte_ne_zero hn hhead

theorem maskIP_v4 (a : IPv4) (n : ℕ) : maskIP (v4InV6Prefix ++ a.bytes) (mask n 4) = masked (mask n 4) a.bytes := rfl

theorem maskIP_v6 {ip : IP} (h : ip.length = 16) (n : ℕ) : maskIP ip (mask n 16) = masked (mask n 16) ip := by
  simp [maskIP, h]

inductive Written : IPNet → Prop
  | v4 (a : IPv4) (n : ℕ) : n ≤ 32 → Written ⟨masked (mask n 4) a.bytes,mask n 4⟩
  | v6 (bytes : List UInt8) (n : ℕ) : bytes.length = 16 → n ≤ 128 → Written ⟨masked (mask n 16) bytes,mask n 16⟩

variable {parseAddr : String → Option Addr}

theorem written_of_parseCIDR {s : String} {net : IPNet} (h : parseCIDR parseAddr s = some net) : Written net := by
  simp only [parseCIDR, Option.bind_eq_bind, Option.bind_eq_some_iff, Option.guard_eq_some'] at h
  obtain ⟨⟨addr,ones⟩,-,a,-,-,-,n,-,-,hn,hnet⟩ := h
  cases hnet
  cases a with
  | v4 a =>
    have hlen : (Addr.v4 a).bitLen / 8 = 4 := by simp only [Addr.bitLen, Nat.reduceDiv]
    rw [hlen, Addr.as16, maskIP_v4]
    exact .v4 a n hn
  | v6 bytes zone =>
    have hlen : (Addr.v6 bytes zone).bitLen / 8 = 16 := by simp only [Addr.bitLen, Nat.reduceDiv]
    rw [hlen, Addr.as16, maskIP_v6 bytes.2]
    exact .v6 bytes n bytes.2 hn

theorem written_of_validateFilterCIDR {s : String} {net : IPNet}
    (h : validateFilterCIDR parseAddr s = .ok (some net)) : Written net := by
  unfold validateFilterCIDR at h
  split at h
  · cases h
  · split at h
    · cases h
    · rename_i ipnet hnet
      cases h
      exact written_of_parseCIDR hnet

theorem to4_of_validateFilterIP {s : String} {ip : IP} (h : validateFilterIP parseAddr s = .ok ip) (hne : ip ≠ []) :
    ∃ a, to4 ip = some a := by
  unfold validateFilterIP at h
  split at h
  · cases h
    exact absurd rfl hne
  · dsimp only at h
    split at h
    · cases h
    · split at h
      · cases h
      · rename_i hto4
        cases h
        exact Option.ne_none_iff_exists'.mp hto4

/-! ## Membership in a network -/

def IPv4.and (a m : IPv4) : IPv4 := ⟨a.b0 &&& m.b0,a.b1 &&& m.b1,a.b2 &&& m.b2,a.b3 &&& m.b3⟩

theorem IPv4.and_bytes (a m : IPv4) : (a.and m).bytes = masked m.bytes a.bytes := rfl

theorem IPv4.and_and_self (a m : IPv4) : (a.and m).and m = a.and m := by
  apply IPv4.bytes_injective
  rw [and_bytes, and_bytes, masked_masked]

theorem contains_iff_and {net : IPNet} {c m : IPv4} (h : net.networkNumberAndMask = some (c.bytes,m.bytes)) (b : IPv4) :
    net.contains b.bytes = true ↔ b.and m = c.and m := by
  simp only [IPNet.contains, h, to4_bytes, Option.elim_some, IPv4.bytes_length, beq_self_eq_true, Bool.true_and,
    beq_iff_eq, ← IPv4.and_bytes, IPv4.bytes_injective.eq_iff]
  exact eq_comm

/-- A network written with four bytes, by its network number and its mask. -/
theorem Written.exists_quads {net : IPNet} (h : Written net) (hlen : net.mask.length = 4) :
    ∃ a m : IPv4, net = ⟨(a.and m).bytes,m.bytes⟩ ∧ ∀ b : IPv4, net.contains b.bytes = true ↔ b.and m = a.and m := by
  cases h with
  | v6 bytes n _ _ => simp at hlen
  | v4 a n hn =>
    obtain ⟨m,hm⟩ := exists_eq_bytes (mask_length n 4)
    rw [hm, ← IPv4.and_bytes]
    refine ⟨a,m,rfl,?_⟩
    intro b
    rw [contains_iff_and (c := a.and m) (m := m) rfl, IPv4.and_and_self]

/-- A network that is written with sixteen bytes and is mapped, by its network number and its mask. -/
theorem Written.exists_mapped {net : IPNet} (h : Written net) (hlen : net.mask.length = 16) {c : IPv4}
    (hc : to4 net.ip = some c) : ∃ m : IPv4, ∀ b : IPv4, net.contains b.bytes = true ↔ b.and m = c := by
  cases h with
  | v4 a n _ => simp at hlen
  | v6 bytes n hbytes hn =>
    obtain ⟨m,hm⟩ := exists_eq_bytes (show ((mask n 16).drop 12).length = 4 by simp)
    have hlength : (masked (mask n 16) bytes).length = 16 := by simp [hbytes]
    have hquad : c.bytes = masked m.bytes (bytes.drop 12) := by
      dsimp only at hc
      rw [to4_sixteen hlength] at hc
      split at hc
      · rw [← eq_bytes_of_quad hc, masked, List.drop_zipWith, hm, masked]
      · cases hc
    have hself : c.and m = c := by
      apply IPv4.bytes_injective
      rw [IPv4.and_bytes, hquad, masked_masked]
    refine ⟨m,fun b => ?_⟩
    rw [contains_iff_and (c := c) (m := m), hself]
    simp [IPNet.networkNumberAndMask, hc, hm]

/-- A network of addresses of version 6 has no address of version 4. -/
theorem Written.contains_eq_false {net : IPNet} (h : Written net) (hlen : net.mask.length = 16)
    (hip : to4 net.ip = none) (b : IPv4) : net.contains b.bytes = false := by
  cases h with
  | v4 a n _ => simp at hlen
  | v6 bytes n hbytes hn => simp_all [IPNet.contains, IPNet.networkNumberAndMask]

theorem Written.mask_length {net : IPNet} (h : Written net) : net.mask.length = 4 ∨ net.mask.length = 16 := by
  cases h with
  | v4 a n _ => exact .inl (AddressPrefix.mask_length n 4)
  | v6 bytes n _ _ => exact .inr (AddressPrefix.mask_length n 16)

end Retina.Trace
