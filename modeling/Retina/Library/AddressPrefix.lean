import Mathlib

/-! # Prefixes of byte strings

The bits of a byte string are counted from the most significant bit of its first byte. A mask of
`n` ones keeps the first `n` bits.
-/
namespace Retina.AddressPrefix

def maskByte (n : ℕ) : UInt8 := if 8 ≤ n then 0xff else ~~~(0xff >>> UInt8.ofNat n)

def mask (n : ℕ) : ℕ → List UInt8
  | 0 => []
  | k + 1 => maskByte n :: mask (n - 8) k

def masked (m bytes : List UInt8) : List UInt8 := List.zipWith (· &&& ·) bytes m

@[simp] theorem mask_length (n k : ℕ) : (mask n k).length = k := by
  induction k generalizing n with
  | zero => rfl
  | succ k ih => rw [mask, List.length_cons, ih]

@[simp] theorem masked_length (m bytes : List UInt8) :
    (masked m bytes).length = min bytes.length m.length := List.length_zipWith

@[simp] theorem masked_cons (m b : UInt8) (ms bytes : List UInt8) :
    masked (m :: ms) (b :: bytes) = (b &&& m) :: masked ms bytes := rfl

/-- What is left of a string under a mask stays under the mask. -/
theorem masked_masked (m bytes : List UInt8) : masked m (masked m bytes) = masked m bytes := by
  induction m generalizing bytes with
  | nil => cases bytes <;> rfl
  | cons m ms ih =>
    cases bytes with
    | nil => rfl
    | cons b bytes => rw [masked_cons, masked_cons, ih, UInt8.and_assoc, UInt8.and_self]

theorem getMsbD_maskByte (n : ℕ) {i : ℕ} (hi : i < 8) : (maskByte n).toBitVec.getMsbD i = decide (i < n) := by
  by_cases hn : 8 ≤ n
  · have hin : i < n := by omega
    rw [maskByte, if_pos hn, decide_eq_true hin]
    interval_cases i <;> rfl
  · have hn' : n < 8 := by omega
    rw [maskByte, if_neg hn]
    interval_cases n <;> interval_cases i <;> rfl

theorem maskByte_ne_zero {n : ℕ} (hn : 0 < n) : maskByte n ≠ 0 := by
  intro h
  have hbit := getMsbD_maskByte n (i := 0) (by decide)
  rw [h, decide_eq_true hn] at hbit
  cases hbit

end Retina.AddressPrefix
