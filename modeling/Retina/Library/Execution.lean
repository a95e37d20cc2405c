import Mathlib

/-! # Runs of a step function

A condition on the steps of a run may read the state in which each event is
taken. An invariant is established once, for the start and for one step.
-/
namespace Retina.Execution
variable {σ ε : Type*} (step : σ → ε → σ)

def run (s : σ) (events : List ε) : σ := events.foldl step s

/-- Every event meets the condition in the state that it finds. -/
def Along (P : σ → ε → Prop) : σ → List ε → Prop
  | _,[] => True
  | s,e :: events => P s e ∧ Along P (step s e) events

instance decidableAlong (P : σ → ε → Prop) [∀ s e, Decidable (P s e)] (s : σ) (events : List ε) :
    Decidable (Along step P s events) :=
  match events with
  | [] => inferInstanceAs (Decidable True)
  | e :: events =>
    have := decidableAlong P (step s e) events
    inferInstanceAs (Decidable (P s e ∧ Along step P (step s e) events))

variable {step}

@[simp] theorem run_cons (s : σ) (e : ε) (events : List ε) :
    run step s (e :: events) = run step (step s e) events := rfl
theorem run_append (s : σ) (events later : List ε) :
    run step s (events ++ later) = run step (run step s events) later := List.foldl_append

theorem along_append (P : σ → ε → Prop) (s : σ) (events later : List ε) :
    Along step P s (events ++ later) ↔ Along step P s events ∧ Along step P (run step s events) later := by
  induction events generalizing s with
  | nil => simp [Along, run]
  | cons e events ih => simp only [List.cons_append, Along, ih, run_cons, and_assoc]

theorem along_of_forall {P : σ → ε → Prop} {events : List ε} (h : ∀ e ∈ events, ∀ s, P s e) (s : σ) :
    Along step P s events := by
  induction events generalizing s with
  | nil => trivial
  | cons e events ih => exact ⟨h e List.mem_cons_self s,ih (fun e' he' => h e' (List.mem_cons_of_mem e he')) _⟩

theorem Along.imp {P Q : σ → ε → Prop} (hPQ : ∀ s e, P s e → Q s e) {s : σ} {events : List ε}
    (h : Along step P s events) : Along step Q s events := by
  induction events generalizing s with
  | nil => trivial
  | cons e events ih => exact ⟨hPQ s e h.1,ih h.2⟩

theorem Along.and {P Q : σ → ε → Prop} {s : σ} {events : List ε} (hP : Along step P s events)
    (hQ : Along step Q s events) : Along step (fun s e => P s e ∧ Q s e) s events := by
  induction events generalizing s with
  | nil => trivial
  | cons e events ih => exact ⟨⟨hP.1,hQ.1⟩,ih hP.2 hQ.2⟩

/-- A property of all prefixes that the condition secures, and that the first step against the condition breaks. -/
theorem forall_prefix_iff_along {D C : σ → ε → Prop} {P : List ε → Prop} {s : σ}
    (hgood : ∀ es, Along step D s es → Along step C s es → P es)
    (hbad : ∀ es e, Along step D s es → Along step C s es → D (run step s es) e → ¬C (run step s es) e → ¬P (es ++ [e]))
    {events : List ε} (hD : Along step D s events) :
    (∀ earlier, earlier <+: events → P earlier) ↔ Along step C s events := by
  constructor
  · intro hall
    induction events using List.reverseRecOn with
    | nil => trivial
    | append_singleton events e ih =>
      rw [along_append] at hD ⊢
      have hC := ih hD.1 fun earlier he => hall earlier (he.trans (List.prefix_append events [e]))
      refine ⟨hC,?_,trivial⟩
      by_contra he
      exact hbad events e hD.1 hC hD.2.1 he (hall _ (List.prefix_refl _))
  · rintro hC earlier ⟨later,rfl⟩
    exact hgood earlier ((along_append _ _ _ _).mp hD).1 ((along_append _ _ _ _).mp hC).1

theorem invariant {I : σ → Prop} {P : σ → ε → Prop} (hstep : ∀ s e, I s → P s e → I (step s e)) {s : σ}
    (hs : I s) {events : List ε} (h : Along step P s events) : I (run step s events) := by
  induction events generalizing s with
  | nil => exact hs
  | cons e events ih => exact ih (hstep s e hs h.1) h.2

/-- What the invariant gives for one step holds at every step. -/
theorem Along.of_invariant {I : σ → Prop} {P Q : σ → ε → Prop} (hstep : ∀ s e, I s → P s e → I (step s e))
    (hPQ : ∀ s e, I s → P s e → Q s e) {s : σ} (hs : I s) {events : List ε} (h : Along step P s events) :
    Along step Q s events := by
  induction events generalizing s with
  | nil => trivial
  | cons e events ih => exact ⟨hPQ s e hs h.1,ih (hstep s e hs h.1) h.2⟩

theorem invariant_of_step {I : σ → Prop} (hstep : ∀ s e, I s → I (step s e)) {s : σ} (hs : I s)
    (events : List ε) : I (run step s events) := by
  induction events generalizing s with
  | nil => exact hs
  | cons e events ih => exact ih (hstep s e hs)

/-- A property that no continuation by free events breaks, for a condition that free events meet: after the first event
against the condition some free events break the property. -/
theorem forall_continuation_iff_along {I Q : σ → Prop} {C : σ → ε → Prop} {free : ε → Prop}
    (hstep : ∀ s e, I s → C s e → I (step s e)) (hfree : ∀ s e, free e → C s e) (hQ : ∀ s, I s → Q s)
    (hbad : ∀ s e, I s → ¬C s e → ∃ later, (∀ e' ∈ later, free e') ∧ ¬Q (run step (step s e) later))
    {s : σ} (hs : I s) (events : List ε) :
    (∀ earlier, earlier <+: events → ∀ later, (∀ e ∈ later, free e) → Q (run step s (earlier ++ later))) ↔
      Along step C s events := by
  have hall : Along step (fun _ _ => True) s events := along_of_forall (fun _ _ _ => trivial) s
  refine forall_prefix_iff_along ?_ ?_ hall
  · intro es _ hC later hlater
    refine hQ _ (invariant hstep hs ((along_append C s es later).mpr ⟨hC,?_⟩))
    exact along_of_forall (fun e he s => hfree s e (hlater e he)) _
  · intro es e _ hC _ he hkeeps
    obtain ⟨later,hlater,hbroken⟩ := hbad _ e (invariant hstep hs hC) he
    have hrun := hkeeps later hlater
    rw [run_append, run_append] at hrun
    exact hbroken hrun

theorem run_of_fixed {s : σ} {events : List ε} (h : ∀ e ∈ events, step s e = s) : run step s events = s := by
  induction events with
  | nil => rfl
  | cons e events ih =>
    rw [run_cons, h e List.mem_cons_self]
    exact ih fun e' he' => h e' (List.mem_cons_of_mem e he')

/-- A quantity that only grows is zero at the end exactly if no step adds to it. -/
theorem eq_zero_iff_along {I : σ → Prop} {f : σ → ℕ} {growth : σ → ε → ℕ}
    (hstep : ∀ s e, I s → I (step s e)) (hf : ∀ s e, I s → f (step s e) = f s + growth s e)
    {s : σ} (hs : I s) (events : List ε) :
    f (run step s events) = 0 ↔ f s = 0 ∧ Along step (fun s e => growth s e = 0) s events := by
  induction events generalizing s with
  | nil => exact ⟨fun h => ⟨h,trivial⟩,fun h => h.1⟩
  | cons e events ih =>
    rw [run_cons, ih (hstep s e hs), hf s e hs, Nat.add_eq_zero_iff, and_assoc]
    rfl

end Retina.Execution
