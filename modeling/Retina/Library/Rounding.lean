import Mathlib

/-! # Rounding a quotient twice

A quotient of two integers is first rounded to a floating-point number and then to an
integer. The first rounding is monotone and leaves representable numbers alone. The
quotients are multiples of a unit that is not too small, so that none of them comes close to
a half without being one, and the first rounding makes no difference.
-/
namespace Retina

/-- What is used of the rounding to `float64`: numbers with a short binary expansion are exact. -/
structure Float64Rounding (fl : ℚ → ℚ) : Prop where
  mono : Monotone fl
  exact : ∀ (k : ℤ) (e : ℕ), |k| ≤ 2 ^ 53 → e ≤ 1074 → fl (k / 2 ^ e) = k / 2 ^ e

theorem float64Rounding_id : Float64Rounding id := ⟨monotone_id,fun _ _ _ _ => rfl⟩

def roundAway (q : ℚ) : ℤ := if 0 ≤ q then round q else -round (-q)

theorem roundAway_of_nonneg {q : ℚ} (h : 0 ≤ q) : roundAway q = round q := if_pos h

theorem roundAway_nonneg {q : ℚ} (h : 0 ≤ q) : 0 ≤ roundAway q := by
  rw [roundAway_of_nonneg h, round_eq]
  exact Int.floor_nonneg.mpr (by linarith)

theorem roundAway_neg {q : ℚ} (h : q ≤ -1) : roundAway q < 0 := by
  have hneg : ¬0 ≤ q := by linarith
  rw [roundAway, if_neg hneg, round_eq]
  have hpos : (1 : ℤ) ≤ ⌊-q + 1 / 2⌋ := Int.le_floor.mpr (by push_cast; linarith)
  omega

/-- The numerator is an integer, so the distance to the next half is at least one part in `2 * d`. -/
theorem div_le_below_half {n m : ℤ} {d : ℕ} (hd : 0 < d) (hunit : 2 * d ≤ 2 ^ 20)
    (hhalf : (n : ℚ) / (2 * d) < m + 1 / 2) : (n : ℚ) / (2 * d) ≤ m + 1 / 2 - 1 / 2 ^ 20 := by
  have hdpos : (0 : ℚ) < 2 * d := by positivity
  have hint : n < (2 * m + 1) * d := by
    have hlt : (n : ℚ) < (m + 1 / 2) * (2 * d) := (div_lt_iff₀ hdpos).mp hhalf
    have hcast : (n : ℚ) < ((2 * m + 1) * d : ℤ) := by
      push_cast
      linarith
    exact_mod_cast hcast
  have hle : (n : ℚ) ≤ (2 * m + 1) * d - 1 := by
    have : n ≤ (2 * m + 1) * d - 1 := by omega
    exact_mod_cast this
  have hsmall : (1 : ℚ) / 2 ^ 20 * (2 * d) ≤ 1 := by
    have hcast : ((2 * d : ℕ) : ℚ) ≤ 2 ^ 20 := by exact_mod_cast hunit
    push_cast at hcast
    rw [div_mul_eq_mul_div, div_le_one (by norm_num)]
    linarith
  rw [div_le_iff₀ hdpos]
  linarith

namespace Float64Rounding
variable {fl : ℚ → ℚ} (h : Float64Rounding fl)
include h

theorem exact_int {k : ℤ} (hk : |k| ≤ 2 ^ 53) : fl k = k := by simpa using h.exact k 0 hk (by norm_num)

theorem nat_inj {a b : ℕ} (ha : a ≤ 2 ^ 53) (hb : b ≤ 2 ^ 53) : fl a = fl b ↔ a = b := by
  have hexact : ∀ n : ℕ, n ≤ 2 ^ 53 → fl n = n := by
    intro n hn
    have hn' : |(n : ℤ)| ≤ 2 ^ 53 := by
      rw [abs_of_nonneg (Int.natCast_nonneg n)]
      exact_mod_cast hn
    simpa using h.exact_int hn'
  rw [hexact a ha, hexact b hb]
  exact Nat.cast_inj

/-- The number below a half by the unit of the grid. -/
theorem exact_below_half {m : ℤ} (hm : 0 ≤ m) (hbound : m ≤ 2 ^ 32) :
    fl (m + 1 / 2 - 1 / 2 ^ 20) = m + 1 / 2 - 1 / 2 ^ 20 := by
  have hk : |(2 * m + 1) * 2 ^ 19 - 1| ≤ 2 ^ 53 := by
    rw [abs_le]
    constructor <;> omega
  have hvalue : ((((2 * m + 1) * 2 ^ 19 - 1 : ℤ) : ℚ)) / 2 ^ 20 = m + 1 / 2 - 1 / 2 ^ 20 := by
    push_cast
    ring
  have hexact := h.exact ((2 * m + 1) * 2 ^ 19 - 1) 20 hk (by norm_num)
  rwa [hvalue] at hexact

theorem exact_half {m : ℤ} (hm : 0 ≤ m) (hbound : m ≤ 2 ^ 32) : fl (m - 1 / 2) = m - 1 / 2 := by
  have hk : |2 * m - 1| ≤ 2 ^ 53 := by
    rw [abs_le]
    constructor <;> omega
  have hvalue : (((2 * m - 1 : ℤ) : ℚ)) / 2 ^ 1 = m - 1 / 2 := by
    push_cast
    ring
  have hexact := h.exact (2 * m - 1) 1 hk (by norm_num)
  rwa [hvalue] at hexact

theorem round_div {n : ℤ} {d : ℕ} (hn : 0 ≤ n) (hd : 0 < d) (hunit : 2 * d ≤ 2 ^ 20) (hbound : n ≤ 2 ^ 31 * (2 * d)) :
    round (fl (n / (2 * d))) = round ((n : ℚ) / (2 * d)) := by
  have hdpos : (0 : ℚ) < 2 * d := by positivity
  generalize hm : round ((n : ℚ) / (2 * d)) = m
  rw [round_eq, Int.floor_eq_iff] at hm
  obtain ⟨hlow,hhigh⟩ := hm
  have hx : (0 : ℚ) ≤ (n : ℚ) / (2 * d) := div_nonneg (by exact_mod_cast hn) hdpos.le
  have hxbound : (n : ℚ) / (2 * d) ≤ 2 ^ 31 := by
    rw [div_le_iff₀ hdpos]
    exact_mod_cast hbound
  have hm0 : 0 ≤ m := by
    have hcast : (-1 : ℚ) < m := by linarith
    have := (by exact_mod_cast hcast : (-1 : ℤ) < m)
    omega
  have hm1 : m ≤ 2 ^ 32 := by
    have hcast : (m : ℚ) ≤ 2 ^ 32 := by linarith
    exact_mod_cast hcast
  have hgap := div_le_below_half hd hunit (show (n : ℚ) / (2 * d) < m + 1 / 2 by linarith)
  rw [round_eq, Int.floor_eq_iff]
  constructor
  · have hfl := h.mono (show (m : ℚ) - 1 / 2 ≤ n / (2 * d) by linarith)
    rw [h.exact_half hm0 hm1] at hfl
    linarith
  · have hfl := h.mono hgap
    rw [h.exact_below_half hm0 hm1] at hfl
    have hunit' : (0 : ℚ) < 1 / 2 ^ 20 := by norm_num
    linarith

end Float64Rounding

end Retina
