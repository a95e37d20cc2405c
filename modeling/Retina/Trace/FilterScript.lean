import Retina.Library.Bytes
import Retina.Trace.Addresses

/-! # The generated filters

`buildSkbIPFilterCondition` and `buildTCPIPFilterCheckFromLocalVars` of `shell/tracescript.go`.
The conditions are built as terms of the script language; their text is what the generator
writes, and their value says which events go on after the filter. Without a condition the
generator writes nothing, and every event goes on.
-/
namespace Retina.Trace

inductive Side
  | source
  | destination

inductive Var
  | raw (side : Side)
  | byte (side : Side) (i : Fin 4)

inductive Term
  | var (v : Var)
  | bswap (t : Term)
  | hex (n : UInt32)
  | dec (n : UInt8)
  | band (a b : Term)

inductive Test
  | eq (a b : Term)
  | and (a b : Test)
  | or (a b : Test)
  | paren (t : Test)

def Var.text : Var → String
  | raw .source => "$saddr_raw"
  | raw .destination => "$daddr_raw"
  | byte .source i => "$s" ++ toString i.val
  | byte .destination i => "$d" ++ toString i.val

def hexText (n : UInt32) : String := String.ofList ((Nat.toDigits 16 n.toNat).leftpad 8 '0')

def Term.text : Term → String
  | var v => v.text
  | bswap t => "bswap(" ++ t.text ++ ")"
  | hex n => "0x" ++ hexText n
  | dec n => toString n.toNat
  | band a b => "(" ++ a.text ++ " & " ++ b.text ++ ")"

def Test.text : Test → String
  | eq a b => a.text ++ " == " ++ b.text
  | and a b => a.text ++ " && " ++ b.text
  | or a b => a.text ++ " || " ++ b.text
  | paren t => "(" ++ t.text ++ ")"

abbrev Env := Var → UInt32

def Term.eval (env : Env) : Term → UInt32
  | var v => env v
  | bswap t => swap32 (t.eval env)
  | hex n => n
  | dec n => n.toUInt32
  | band a b => a.eval env &&& b.eval env

def Test.holds (env : Env) : Test → Bool
  | eq a b => a.eval env == b.eval env
  | and a b => a.holds env && b.holds env
  | or a b => a.holds env || b.holds env
  | paren t => t.holds env

/-- `strings.Join` of the conditions with `||`, negated as the condition of an early return. -/
structure Filter where
  conditions : List Test

def Filter.text (f : Filter) : String :=
  if f.conditions = [] then ""
  else
    "    // IP/CIDR filter: skip if not matching\n    if (!(" ++ " || ".intercalate (f.conditions.map Test.text) ++
      ")) \x7b return; \x7d\n\n"

def Filter.letsThrough (f : Filter) (env : Env) : Bool :=
  if f.conditions = [] then true else f.conditions.any (Test.holds env)

/-! ## The generator -/

structure TraceConfig where
  filterIPs : List IP
  filterCIDRs : List (Option IPNet)

def ipToHex (ip : IP) : UInt32 :=
  match to4 ip with
  | none => 0
  | some a => join32 (join16 a.b0 a.b1) (join16 a.b2 a.b3)

def IPv4.byte (a : IPv4) (i : Fin 4) : UInt8 :=
  match i with
  | 0 => a.b0
  | 1 => a.b1
  | 2 => a.b2
  | 3 => a.b3

def eitherSide (test : Side → Test) : Test := .paren (.or (test .source) (test .destination))

def eachByte (test : Fin 4 → Test) : Test := .paren (.and (.and (.and (test 0) (test 1)) (test 2)) (test 3))

def networkOrder (side : Side) : Term := .bswap (.var (.raw side))

def skbIPCondition (ip : IP) : Option Test := do
  let ipv4 ← to4 ip
  return eitherSide fun side => .eq (networkOrder side) (.hex (ipToHex ipv4.bytes))

def skbCIDRCondition (cidr : Option IPNet) : Option Test := do
  let cidr ← cidr
  let ipv4 ← to4 cidr.ip
  let networkHex := ipToHex ipv4.bytes
  let maskHex := ipToHex (nilOr (to4 cidr.mask))
  return eitherSide fun side => .eq (.band (networkOrder side) (.hex maskHex)) (.hex networkHex)

def tcpIPCondition (ip : IP) : Option Test := do
  let ipv4 ← to4 ip
  return eitherSide fun side => eachByte fun i => .eq (.var (.byte side i)) (.dec (ipv4.byte i))

/-- Masks that do not have four bytes are passed over. -/
def tcpCIDRCondition (cidr : Option IPNet) : Option Test := do
  let cidr ← cidr
  let ipv4 ← to4 cidr.ip
  let mask ← quad cidr.mask
  return eitherSide fun side =>
    eachByte fun i => .eq (.band (.var (.byte side i)) (.dec (mask.byte i))) (.dec (ipv4.byte i))

namespace TraceConfig
variable (config : TraceConfig)

def skbFilter : Filter where
  conditions := config.filterIPs.filterMap skbIPCondition ++ config.filterCIDRs.filterMap skbCIDRCondition

def tcpFilter : Filter where
  conditions := config.filterIPs.filterMap tcpIPCondition ++ config.filterCIDRs.filterMap tcpCIDRCondition

def buildSkbIPFilterCondition : String :=
  if config.filterIPs = [] ∧ config.filterCIDRs = [] then "" else config.skbFilter.text

def buildTCPIPFilterCheckFromLocalVars : String :=
  if config.filterIPs = [] ∧ config.filterCIDRs = [] then "" else config.tcpFilter.text

end TraceConfig

/-! ## The values of the variables -/

/-- The header field as a number of a little-endian machine. -/
def IPv4.littleEndian (a : IPv4) : UInt32 := join32 (join16 a.b3 a.b2) (join16 a.b1 a.b0)

def IPv4.bigEndian (a : IPv4) : UInt32 := join32 (join16 a.b0 a.b1) (join16 a.b2 a.b3)

def sideOf (src dst : IPv4) : Side → IPv4
  | .source => src
  | .destination => dst

/-- What the variables hold for an event between two addresses. -/
def eventEnv (src dst : IPv4) : Env
  | .raw side => (sideOf src dst side).littleEndian
  | .byte side i => ((sideOf src dst side).byte i).toUInt32

@[simp] theorem ipToHex_bytes (a : IPv4) : ipToHex a.bytes = a.bigEndian := rfl

@[simp] theorem ipToHex_nil : ipToHex [] = 0 := rfl

@[simp] theorem swap32_littleEndian (a : IPv4) : swap32 a.littleEndian = a.bigEndian := by
  simp [IPv4.littleEndian, IPv4.bigEndian]

theorem IPv4.bigEndian_inj {a b : IPv4} : a.bigEndian = b.bigEndian ↔ a = b := by
  rw [bigEndian, bigEndian, join32_inj, join16_inj, join16_inj, IPv4.mk.injEq]
  exact and_assoc

theorem IPv4.byte_and (a m : IPv4) (i : Fin 4) : (a.and m).byte i = a.byte i &&& m.byte i := by
  fin_cases i <;> rfl

theorem IPv4.bigEndian_and (a m : IPv4) : a.bigEndian &&& m.bigEndian = (a.and m).bigEndian := by
  rw [bigEndian, bigEndian, bigEndian, join32_and, join16_and, join16_and]
  rfl

theorem holds_eitherSide (env : Env) (test : Side → Test) :
    (eitherSide test).holds env = true ↔ ∃ side, (test side).holds env = true := by
  simp only [eitherSide, Test.holds, Bool.or_eq_true]
  constructor
  · rintro (h | h)
    · exact ⟨.source,h⟩
    · exact ⟨.destination,h⟩
  · rintro ⟨side,h⟩
    cases side with
    | source => exact .inl h
    | destination => exact .inr h

theorem holds_eachByte (env : Env) (test : Fin 4 → Test) :
    (eachByte test).holds env = true ↔ ∀ i, (test i).holds env = true := by
  simp only [eachByte, Test.holds, Bool.and_eq_true, Fin.forall_fin_succ, Fin.forall_fin_zero, and_true, and_assoc]
  rfl

theorem IPv4.ext_byte {a b : IPv4} : (∀ i, a.byte i = b.byte i) ↔ a = b := by
  constructor
  · intro h
    rw [IPv4.mk.injEq]
    exact ⟨h 0,h 1,h 2,h 3⟩
  · rintro rfl i
    rfl

theorem toUInt32_inj {a b : UInt8} : a.toUInt32 = b.toUInt32 ↔ a = b := by
  constructor
  · intro h
    have hback := congrArg UInt32.toUInt8 h
    simpa using hback
  · exact congrArg UInt8.toUInt32

theorem letsThrough_iff (f : Filter) (env : Env) :
    f.letsThrough env = true ↔ f.conditions = [] ∨ ∃ t ∈ f.conditions, t.holds env = true := by
  rw [Filter.letsThrough]
  split
  · rename_i h
    exact iff_of_true rfl (.inl h)
  · rename_i h
    rw [List.any_eq_true, or_iff_right h]

end Retina.Trace
