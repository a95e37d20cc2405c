import Mathlib

/-! # Words in memory

Words of two and of four bytes are read from a memory of bytes, either with the least
significant byte first, as the machine reads them, or with the most significant byte first,
as the network writes them. A swap of the bytes goes from one reading to the other.
-/
namespace Retina

def join16 (high low : UInt8) : UInt16 := ⟨high.toBitVec ++ low.toBitVec⟩

def highByte (w : UInt16) : UInt8 := ⟨w.toBitVec.extractLsb' 8 8⟩

def lowByte (w : UInt16) : UInt8 := ⟨w.toBitVec.extractLsb' 0 8⟩

def swap16 (w : UInt16) : UInt16 := join16 (lowByte w) (highByte w)

def join32 (high low : UInt16) : UInt32 := ⟨high.toBitVec ++ low.toBitVec⟩

def highHalf (w : UInt32) : UInt16 := ⟨w.toBitVec.extractLsb' 16 16⟩

def lowHalf (w : UInt32) : UInt16 := ⟨w.toBitVec.extractLsb' 0 16⟩

def swap32 (w : UInt32) : UInt32 := join32 (swap16 (lowHalf w)) (swap16 (highHalf w))

@[simp] theorem highByte_join16 (high low : UInt8) : highByte (join16 high low) = high :=
  UInt8.toBitVec_inj.mp BitVec.extractLsb'_append_eq_left

@[simp] theorem lowByte_join16 (high low : UInt8) : lowByte (join16 high low) = low :=
  UInt8.toBitVec_inj.mp BitVec.extractLsb'_append_eq_right

@[simp] theorem swap16_join16 (high low : UInt8) : swap16 (join16 high low) = join16 low high := by
  simp [swap16]

@[simp] theorem highHalf_join32 (high low : UInt16) : highHalf (join32 high low) = high :=
  UInt16.toBitVec_inj.mp BitVec.extractLsb'_append_eq_left

@[simp] theorem lowHalf_join32 (high low : UInt16) : lowHalf (join32 high low) = low :=
  UInt16.toBitVec_inj.mp BitVec.extractLsb'_append_eq_right

@[simp] theorem swap32_join32 (high low : UInt16) :
    swap32 (join32 high low) = join32 (swap16 low) (swap16 high) := by
  simp [swap32]

theorem join16_inj {a b c d : UInt8} : join16 a b = join16 c d ↔ a = c ∧ b = d := by
  constructor
  · intro h
    have hhigh := congrArg highByte h
    have hlow := congrArg lowByte h
    simp only [highByte_join16, lowByte_join16] at hhigh hlow
    exact ⟨hhigh,hlow⟩
  · rintro ⟨rfl,rfl⟩
    rfl

theorem join32_inj {a b c d : UInt16} : join32 a b = join32 c d ↔ a = c ∧ b = d := by
  constructor
  · intro h
    have hhigh := congrArg highHalf h
    have hlow := congrArg lowHalf h
    simp only [highHalf_join32, lowHalf_join32] at hhigh hlow
    exact ⟨hhigh,hlow⟩
  · rintro ⟨rfl,rfl⟩
    rfl

theorem join16_and (a b c d : UInt8) : join16 a b &&& join16 c d = join16 (a &&& c) (b &&& d) :=
  UInt16.toBitVec_inj.mp BitVec.and_append

theorem join32_and (a b c d : UInt16) : join32 a b &&& join32 c d = join32 (a &&& c) (b &&& d) :=
  UInt32.toBitVec_inj.mp BitVec.and_append

theorem join16_bytes (w : UInt16) : join16 (highByte w) (lowByte w) = w := by
  apply UInt16.toBitVec_inj.mp
  have h : w.toBitVec.extractLsb' 8 8 ++ w.toBitVec.extractLsb' 0 8 = w.toBitVec.extractLsb' 0 16 :=
    BitVec.extractLsb'_append_extractLsb'_eq_extractLsb' rfl
  exact h.trans BitVec.extractLsb'_eq_self

theorem swap16_eq_self {w : UInt16} : swap16 w = w ↔ highByte w = lowByte w := by
  rw [← join16_bytes w, swap16_join16, join16_inj, highByte_join16, lowByte_join16]
  constructor
  · exact And.right
  · exact fun h => ⟨h.symm,h⟩

abbrev Memory := ℕ → UInt8

namespace Memory

def le16 (m : Memory) (a : ℕ) : UInt16 := join16 (m (a + 1)) (m a)

def be16 (m : Memory) (a : ℕ) : UInt16 := join16 (m a) (m (a + 1))

def le32 (m : Memory) (a : ℕ) : UInt32 := join32 (m.le16 (a + 2)) (m.le16 a)

def be32 (m : Memory) (a : ℕ) : UInt32 := join32 (m.be16 a) (m.be16 (a + 2))

@[simp] theorem swap16_le16 (m : Memory) (a : ℕ) : swap16 (m.le16 a) = m.be16 a := by
  simp [le16, be16]

@[simp] theorem swap32_le32 (m : Memory) (a : ℕ) : swap32 (m.le32 a) = m.be32 a := by
  simp [le32, be32]

theorem agree_append (m : Memory) (a b n k : ℕ) :
    (∀ i < n + k, m (a + i) = m (b + i)) ↔
      (∀ i < n, m (a + i) = m (b + i)) ∧ ∀ i < k, m (a + n + i) = m (b + n + i) := by
  constructor
  · intro h
    refine ⟨fun i hi => h i (by omega),fun i hi => ?_⟩
    rw [Nat.add_assoc, Nat.add_assoc]
    exact h (n + i) (by omega)
  · rintro ⟨hlow,hhigh⟩ i hi
    rcases Nat.lt_or_ge i n with hlt | hge
    · exact hlow i hlt
    · obtain ⟨j,rfl⟩ := Nat.exists_eq_add_of_le hge
      rw [← Nat.add_assoc, ← Nat.add_assoc]
      exact hhigh j (by omega)

theorem le16_eq_iff (m : Memory) (a b : ℕ) :
    m.le16 a = m.le16 b ↔ ∀ i < 2, m (a + i) = m (b + i) := by
  rw [le16, le16, join16_inj]
  constructor
  · rintro ⟨hhigh,hlow⟩ i hi
    interval_cases i
    · exact hlow
    · exact hhigh
  · intro h
    exact ⟨h 1 (by decide),h 0 (by decide)⟩

theorem le32_eq_iff (m : Memory) (a b : ℕ) :
    m.le32 a = m.le32 b ↔ ∀ i < 4, m (a + i) = m (b + i) := by
  rw [le32, le32, join32_inj, le16_eq_iff, le16_eq_iff, agree_append m a b 2 2]
  exact and_comm

def Holds (m : Memory) : ℕ → List UInt8 → Prop
  | _, [] => True
  | a, b :: bs => m a = b ∧ Holds m (a + 1) bs

instance decidableHolds (m : Memory) : ∀ (a : ℕ) (bs : List UInt8), Decidable (m.Holds a bs)
  | _, [] => isTrue trivial
  | a, b :: bs =>
    match decEq (m a) b, decidableHolds m (a + 1) bs with
    | isTrue hb, isTrue hbs => isTrue ⟨hb,hbs⟩
    | isFalse hb, _ => isFalse fun h => hb h.1
    | _, isFalse hbs => isFalse fun h => hbs h.2

theorem holds_append {m : Memory} {a : ℕ} {bs cs : List UInt8} :
    m.Holds a (bs ++ cs) ↔ m.Holds a bs ∧ m.Holds (a + bs.length) cs := by
  induction bs generalizing a with
  | nil => simp [Holds]
  | cons b bs ih =>
    simp only [List.cons_append, Holds, ih, List.length_cons, and_assoc]
    rw [Nat.add_right_comm, Nat.add_assoc]

end Memory
end Retina
