import Mathlib

/-! # Repeated attempts

An attempt changes the state even if it fails. It is repeated until it succeeds or
the number of attempts is used up. The attempts are numbered, so that each of them
may meet other circumstances.
-/
namespace Retina
variable {σ ε : Type*}

/-- The error of the last attempt, and none if there was no attempt. -/
def retryFrom (attempt : ℕ → σ → σ × Option ε) (i : ℕ) : ℕ → σ → Option ε → σ × Option ε
  | 0,s,err => (s,err)
  | n + 1,s,_ =>
    match attempt i s with
    | (s',none) => (s',none)
    | (s',some err) => retryFrom attempt (i + 1) n s' (some err)

def retry (attempt : ℕ → σ → σ × Option ε) (n : ℕ) (s : σ) : σ × Option ε := retryFrom attempt 0 n s none

namespace Retry
variable {attempt : ℕ → σ → σ × Option ε}

/-- What failed attempts lead to is found after an error, what a successful one makes of it after a success. -/
theorem from_cases {Q : ℕ → σ → Prop} {R : σ → Prop} {i n : ℕ} {s : σ} {err : Option ε}
    (hfail : ∀ j s s' e, j < i + n → Q j s → attempt j s = (s',some e) → Q (j + 1) s')
    (hok : ∀ j s s', j < i + n → Q j s → attempt j s = (s',none) → R s') (hs : Q i s)
    (hzero : n = 0 → err = none → R s) :
    ((retryFrom attempt i n s err).2 = none → R (retryFrom attempt i n s err).1) ∧
      ∀ e, (retryFrom attempt i n s err).2 = some e → Q (i + n) (retryFrom attempt i n s err).1 := by
  induction n generalizing i s err with
  | zero => exact ⟨hzero rfl,fun _ _ => hs⟩
  | succ n ih =>
    have hi : i + (n + 1) = i + 1 + n := by omega
    rw [retryFrom, hi]
    rcases h : attempt i s with ⟨s',_ | e⟩
    · exact ⟨fun _ => hok i s s' (by omega) hs h,fun _ h => by cases h⟩
    · refine ih ?_ ?_ (hfail i s s' e (by omega) hs h) ?_
      · intro j s s' e hj
        exact hfail j s s' e (by omega)
      · intro j s s' hj
        exact hok j s s' (by omega)
      · intro _ herr
        cases herr

theorem cases {Q : ℕ → σ → Prop} {R : σ → Prop} {n : ℕ} {s : σ}
    (hfail : ∀ j s s' e, j < n → Q j s → attempt j s = (s',some e) → Q (j + 1) s')
    (hok : ∀ j s s', j < n → Q j s → attempt j s = (s',none) → R s') (hs : Q 0 s) (hzero : n = 0 → R s) :
    ((retry attempt n s).2 = none → R (retry attempt n s).1) ∧
      ∀ e, (retry attempt n s).2 = some e → Q n (retry attempt n s).1 := by
  rw [← Nat.zero_add n] at hfail hok
  rw [retry]
  nth_rewrite 4 [← Nat.zero_add n]
  exact from_cases hfail hok hs fun hn _ => hzero hn

/-- After an error every attempt failed, the first one from the start. -/
theorem of_error {Q : σ → Prop} {n : ℕ} {s : σ} {e : ε}
    (hfirst : ∀ s' e, attempt 0 s = (s',some e) → Q s')
    (hfail : ∀ j s s' e, Q s → attempt j s = (s',some e) → Q s') (h : (retry attempt n s).2 = some e) :
    Q (retry attempt n s).1 := by
  cases n with
  | zero => simp [retry, retryFrom] at h
  | succ n =>
    rw [retry, retryFrom] at h ⊢
    rcases h0 : attempt 0 s with ⟨s',_ | e'⟩
    · simp [h0] at h
    · simp only [h0] at h
      exact (from_cases (Q := fun _ => Q) (R := fun _ => True) (fun j s s' e _ => hfail j s s' e) (by simp)
        (hfirst s' e' h0) (by simp)).2 e h

theorem of_first {n : ℕ} {s : σ} (hn : 0 < n) (h : (attempt 0 s).2 = none) : retry attempt n s = attempt 0 s := by
  obtain ⟨n,rfl⟩ := Nat.exists_eq_add_of_lt hn
  rw [retry, Nat.zero_add, retryFrom]
  rcases h0 : attempt 0 s with ⟨s',_ | e⟩
  · rfl
  · simp [h0] at h

/-- One attempt that succeeds wherever failed attempts lead is enough. -/
theorem from_succeeds {Q : σ → Prop} {i n k : ℕ} {s : σ} {err : Option ε}
    (hfail : ∀ j s s' e, j < i + n → Q s → attempt j s = (s',some e) → Q s') (hs : Q s)
    (hik : i ≤ k) (hk : k < i + n) (hok : ∀ s, Q s → (attempt k s).2 = none) :
    (retryFrom attempt i n s err).2 = none := by
  induction n generalizing i s err with
  | zero => omega
  | succ n ih =>
    rw [retryFrom]
    rcases h : attempt i s with ⟨s',_ | e⟩
    · rfl
    · have hne : i ≠ k := by
        rintro rfl
        simpa [h] using hok s hs
      refine ih ?_ (hfail i s s' e (by omega) hs h) (by omega) (by omega)
      intro j s s' e hj
      exact hfail j s s' e (by omega)

theorem succeeds {Q : σ → Prop} {n k : ℕ} {s : σ}
    (hfail : ∀ j s s' e, j < n → Q s → attempt j s = (s',some e) → Q s') (hs : Q s) (hk : k < n)
    (hok : ∀ s, Q s → (attempt k s).2 = none) : (retry attempt n s).2 = none :=
  from_succeeds (by simpa using hfail) hs (Nat.zero_le k) (by simpa using hk) hok

end Retry

end Retina
