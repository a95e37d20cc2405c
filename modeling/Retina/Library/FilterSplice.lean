import Retina.Library.FilterGrammar

/-! # Texts spliced between parentheses

A text of any kind is put in parentheses and joined to a fixed expression by `and`, and the
result is put in parentheses again. The text may close both pairs of parentheses and open new
ones. What it says between them is then outside of everything that was to restrict it.
-/
namespace Retina.FilterGrammar

variable {P : Type*} {G : Grammar P}

theorem Unsplit.nots {ts : List Token} (h : Unsplit ts) (k : ℕ) : Unsplit (List.replicate k Token.not ++ ts) := by
  induction k with
  | zero => exact h
  | succ k ih =>
    rw [List.replicate_succ, List.cons_append]
    exact ih.not

def spliceEnd (fixed : List Token) : List Token :=
  Token.rparen :: Token.connective .and :: (Token.lparen :: fixed ++ [Token.rparen]) ++ [Token.rparen]

def spliced (user fixed : List Token) : List Token := Token.lparen :: Token.lparen :: user ++ spliceEnd fixed

/-- The text closes both parentheses, and behind its last connective outside of all parentheses
it opens one, under some negations. What stands before the connective matches the given packets. -/
def Escapes (G : Grammar P) (user : List Token) (m : Set P) (c : Connective) (k : ℕ) : Prop :=
  ∃ us vs, user = us ++ Token.connective c :: (List.replicate k Token.not ++ Token.lparen :: vs) ∧
    Balanced (vs ++ [Token.rparen]) ∧ Reads G .expr [] (Token.lparen :: Token.lparen :: us) m

/-- A text that never closes two parentheses that are not its own does not escape. -/
theorem not_escapes_of_depth {user : List Token} (h : ∀ us vs, user = us ++ vs → -2 < depth us) (m : Set P)
    (c : Connective) (k : ℕ) : ¬Escapes G user m c k := by
  rintro ⟨us,vs,hsplit,-,hreads⟩
  have hdepth := h us _ hsplit
  have htotal := hreads.balanced.total
  simp only [depth_cons, weight_lparen] at htotal
  omega

section
variable {user fixed : List Token} {D : Set P}

theorem depth_spliceEnd (hfixed : Balanced fixed) : depth (spliceEnd fixed) = -2 := by
  simp [spliceEnd, hfixed.total]

/-- What is read inside of the last pair of parentheses matches the fixed expression. -/
theorem subset_of_reads_fixed (hfixed : IsExpr G fixed (some D)) {b ts : List Token} {C : Set P}
    (hplain : G.Plain (b ++ ts))
    (h : Reads G .expr b (ts ++ Token.connective .and :: (Token.lparen :: fixed ++ [Token.rparen])) C) : C ⊆ D := by
  obtain ⟨C₁,C₂,-,hC₂,rfl⟩ := (reads_join_iff hfixed.group.unsplit).mp h
  obtain rfl := Option.some.inj ((hfixed.group.reads_iff _ (by simpa using hplain) _).mp hC₂)
  exact Set.inter_subset_right

/-- A text that escapes is read outside of the restriction. -/
theorem Escapes.exists_subset {m m₁ : Set P} {c : Connective} {k : ℕ} (hescapes : Escapes G user m c k)
    (hplain : G.Plain user) (hfixed : IsExpr G fixed (some D)) (h : Reads G .expr [] (spliced user fixed) m₁) :
    ∃ C ⊆ D, m₁ = c.apply m (compl^[k] C) := by
  obtain ⟨us,vs,rfl,hvs,hm⟩ := hescapes
  have hinner := hvs.join .and hfixed.group.unsplit.toBalanced
  have hsplit : spliced (us ++ Token.connective c :: (List.replicate k Token.not ++ Token.lparen :: vs)) fixed =
      (Token.lparen :: Token.lparen :: us) ++ Token.connective c :: (List.replicate k Token.not ++
        (Token.lparen :: (vs ++ [Token.rparen] ++ Token.connective .and :: (Token.lparen :: fixed ++ [Token.rparen])) ++
          [Token.rparen])) := by
    simp [spliced, spliceEnd]
  rw [hsplit, reads_join_iff ((Unsplit.group hinner).nots k)] at h
  obtain ⟨m',m₂,hm',hm₂,rfl⟩ := h
  obtain rfl := hm.unique hm'
  obtain ⟨C,hC,rfl⟩ := (reads_nots_iff k).mp hm₂
  exact ⟨C,subset_of_reads_fixed hfixed (by simpa using hplain) ((reads_group_iff hinner).mp hC),rfl⟩

theorem depth_of_spliceEnd_eq (hfixed : Balanced fixed) {zs us : List Token} {c : Connective}
    (h : spliceEnd fixed = zs ++ Token.connective c :: us) : -1 ≤ depth zs := by
  rcases zs with _ | ⟨z,zs⟩
  · simp
  · obtain ⟨rfl,hzs⟩ := List.cons.inj h
    have hbalanced := (Unsplit.group hfixed).toBalanced.cons (weight_connective .and)
    rcases List.append_eq_append_iff.mp hzs with ⟨ws,-,hws⟩ | ⟨ws,hws,-⟩
    · exact absurd hws (by cases ws <;> simp)
    · have hpre := hbalanced.initial zs ws hws
      simp only [depth_cons, weight_rparen]
      omega

/-- A connective outside of all parentheses belongs to the spliced text. -/
theorem exists_of_spliced_eq (hfixed : Balanced fixed) {ts us : List Token} {c : Connective} (hts : depth ts = 0)
    (huser : depth user = 0) (h : spliced user fixed = ts ++ Token.connective c :: us) :
    ∃ us' ws, ts = Token.lparen :: Token.lparen :: us' ∧ user = us' ++ Token.connective c :: ws ∧
      us = ws ++ spliceEnd fixed := by
  rcases List.append_eq_append_iff.mp h with ⟨zs,rfl,hzs⟩ | ⟨zs,hzs,hus⟩
  · have hpre := depth_of_spliceEnd_eq hfixed hzs
    simp only [List.cons_append, depth_cons, depth_append, weight_lparen] at hts
    omega
  · rcases zs with _ | ⟨z,ws⟩
    · exact absurd (List.cons.inj hus).1 (by simp)
    · obtain ⟨rfl,rfl⟩ := List.cons.inj hus
      rcases ts with _ | ⟨t,_ | ⟨t',us'⟩⟩
      · exact absurd (List.cons.inj hzs).1 (by simp)
      · exact absurd (List.cons.inj (List.cons.inj hzs).2).1 (by simp)
      · obtain ⟨rfl,htail⟩ := List.cons.inj hzs
        obtain ⟨rfl,huser'⟩ := List.cons.inj htail
        exact ⟨us',ws,rfl,huser',rfl⟩

/-- The negations at the front of a term are in the spliced text. -/
theorem exists_of_nots_eq {ws core : List Token} {k : ℕ}
    (h : ws ++ spliceEnd fixed = List.replicate k Token.not ++ core) :
    ∃ ws', ws = List.replicate k Token.not ++ ws' ∧ core = ws' ++ spliceEnd fixed := by
  rcases List.append_eq_append_iff.mp h with ⟨zs,hzs,hend⟩ | ⟨zs,hzs,hend⟩
  · rcases zs with _ | ⟨z,zs⟩
    · exact ⟨[],by simpa using hzs.symm,hend.symm⟩
    · have hz : z ∈ List.replicate k Token.not := by
        rw [hzs]
        exact List.mem_append_right ws List.mem_cons_self
      rw [List.eq_of_mem_replicate hz] at hend
      exact absurd (List.cons.inj hend).1 (by simp)
  · exact ⟨zs,hzs,hend⟩

/-- What stands in the outer parentheses, from where it ends. -/
theorem eq_of_append_spliceEnd {ts inner : List Token} (h : ts ++ spliceEnd fixed = inner ++ [Token.rparen]) :
    inner = ts ++ [Token.rparen] ++ Token.connective .and :: (Token.lparen :: fixed ++ [Token.rparen]) := by
  rw [← List.append_left_inj [Token.rparen]]
  refine h.symm.trans ?_
  simp [spliceEnd]

/-- A primitive does not have the fixed expression, which is in parentheses, at its end, if that has a token that
primitives have outside of parentheses only. -/
theorem not_primitive_of_depth (hfixed : Balanced fixed) {mark : Token} (hmem : mark ∈ fixed)
    (hmark : ∀ {b us vs m}, G.primitive b (us ++ mark :: vs) m → depth us = 0) {b : List Token} {m : Set P}
    {ts : List Token} (hts : depth ts = 2) : ¬G.primitive b (ts ++ spliceEnd fixed) m := by
  intro hp
  obtain ⟨xs,ys,hxs⟩ := List.append_of_mem hmem
  have hpre := hfixed.initial xs (mark :: ys) hxs
  have hend : ts ++ spliceEnd fixed = ts ++ (Token.rparen :: Token.connective .and :: Token.lparen :: xs) ++
      mark :: (ys ++ [Token.rparen,Token.rparen]) := by
    simp [spliceEnd, hxs]
  rw [hend] at hp
  have hdepth := hmark hp
  simp only [depth_append, depth_cons, weight_rparen, weight_connective, weight_lparen] at hdepth
  omega

/-- A text that does not escape is restricted by the fixed expression. The fixed expression has a
token that primitives have outside of parentheses only, so that it is not a part of one. -/
theorem subset_of_not_escapes (hfixed : IsExpr G fixed (some D)) {mark : Token} (hmem : mark ∈ fixed)
    (hmark : ∀ {b us vs m}, G.primitive b (us ++ mark :: vs) m → depth us = 0) (hplain : G.Plain user)
    (hescapes : ∀ m c k, ¬Escapes G user m c k) {m₁ : Set P} (h : Reads G .expr [] (spliced user fixed) m₁) :
    m₁ ⊆ D := by
  have huser : depth user = 0 := by
    have htotal := h.balanced.total
    simp only [spliced, List.cons_append, depth_cons, depth_append, weight_lparen,
      depth_spliceEnd hfixed.balanced] at htotal
    omega
  generalize hX : spliced user fixed = X at h
  cases h with
  | term h =>
    cases h with
    | primitive hp =>
      subst hX
      have hopen : depth (Token.lparen :: Token.lparen :: user) = 2 := by simp [huser]
      exact absurd hp (not_primitive_of_depth hfixed.balanced hmem hmark hopen)
    | not _ => exact absurd (List.cons.inj hX).1 (by simp)
    | group h =>
      rw [eq_of_append_spliceEnd (List.cons.inj hX).2] at h
      exact subset_of_reads_fixed hfixed (by simpa using hplain) h
  | join c h h' =>
    obtain ⟨us',ws,rfl,rfl,rfl⟩ := exists_of_spliced_eq hfixed.balanced h.balanced.total huser hX
    obtain ⟨k,core,hcore,hkind⟩ := h'.exists_nots
    obtain ⟨ws',rfl,rfl⟩ := exists_of_nots_eq hcore
    rcases hkind with ⟨b',m',hp⟩ | ⟨inner,hinner,hbalanced⟩
    · have htotal := (G.unsplit hp).total
      rw [depth_append, depth_spliceEnd hfixed.balanced] at htotal
      exact (not_primitive_of_depth hfixed.balanced hmem hmark (by omega) hp).elim
    · have htotal := (Unsplit.group hbalanced).total
      rw [← hinner, depth_append, depth_spliceEnd hfixed.balanced] at htotal
      rcases ws' with _ | ⟨w,vs⟩
      · simp at htotal
      · obtain ⟨rfl,htail⟩ := List.cons.inj hinner
        have hvs : Balanced (vs ++ [Token.rparen]) := by
          rw [eq_of_append_spliceEnd htail] at hbalanced
          exact hbalanced.of_append_right (by simp [hfixed.balanced.total])
        exact absurd ⟨us',vs,rfl,hvs,h⟩ (hescapes _ c k)

/-- Under a restriction of its own, a text that escapes keeps to the fixed expression iff what it
says outside does. -/
theorem Connective.apply_iterate_compl_inter_subset_iff {C m s : Set P} (hC : C ⊆ D) (c : Connective) (k : ℕ) :
    c.apply m (compl^[k] C) ∩ s ⊆ D ↔ c.apply m (compl^[k] ∅) ∩ s ⊆ D := by
  rcases Nat.even_or_odd k with hk | hk
  · rw [compl_involutive.iterate_even hk]
    cases c with
    | and =>
      refine iff_of_true ?_ (by simp [apply])
      exact fun p hp => hC hp.1.2
    | or =>
      simp only [apply, id, Set.union_empty, Set.union_inter_distrib_right, Set.union_subset_iff]
      exact and_iff_left fun p hp => hC hp.1
  · rw [compl_involutive.iterate_odd hk]
    have hout : ∀ p, p ∉ D → p ∈ Cᶜ := fun p hp hpC => hp (hC hpC)
    constructor
    · intro h p hp
      by_contra hpD
      cases c with
      | and => exact hpD (h ⟨⟨hp.1.1,hout p hpD⟩,hp.2⟩)
      | or => exact hpD (h ⟨Or.inr (hout p hpD),hp.2⟩)
    · rintro h p ⟨hp,hs⟩
      cases c with
      | and => exact h ⟨⟨hp.1,Set.notMem_empty p⟩,hs⟩
      | or => exact h ⟨Or.inr (Set.notMem_empty p),hs⟩

end

end Retina.FilterGrammar
