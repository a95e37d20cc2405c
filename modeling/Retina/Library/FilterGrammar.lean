import Mathlib

/-! # Filter expressions

Expressions of a filter language over a set of packets, as lists of tokens: primitives, joined
by two connectives of equal precedence that associate to the left, negation, which binds
tighter, and groups in parentheses. What the primitives are is left open. Their meaning may
depend on what stands before them, and they may have parentheses of their own. It is enough
that a connective outside of all parentheses is never a part of one. Some words move the place
at which all later primitives look for a header; behind other tokens a primitive may have a
meaning of its own.
-/
namespace Retina.FilterGrammar

inductive Connective
  | and
  | or
deriving DecidableEq

inductive Token
  | lparen
  | rparen
  | connective (c : Connective)
  | not
  | word (w : String)
deriving DecidableEq

def Connective.apply {P : Type*} : Connective → Set P → Set P → Set P
  | and, m, m' => m ∩ m'
  | or, m, m' => m ∪ m'

/-! ## Parentheses -/

def Token.weight : Token → ℤ
  | lparen => 1
  | rparen => -1
  | _ => 0

def depth (ts : List Token) : ℤ := (ts.map Token.weight).sum

@[simp] theorem depth_nil : depth [] = 0 := rfl

@[simp] theorem depth_cons (t : Token) (ts : List Token) : depth (t :: ts) = t.weight + depth ts := by
  simp [depth]

@[simp] theorem depth_append (ts us : List Token) : depth (ts ++ us) = depth ts + depth us := by
  simp [depth]

@[simp] theorem weight_lparen : Token.lparen.weight = 1 := rfl

@[simp] theorem weight_rparen : Token.rparen.weight = -1 := rfl

@[simp] theorem weight_connective (c : Connective) : (Token.connective c).weight = 0 := rfl

@[simp] theorem weight_not : Token.not.weight = 0 := rfl

@[simp] theorem weight_word (w : String) : (Token.word w).weight = 0 := rfl

structure Balanced (ts : List Token) : Prop where
  total : depth ts = 0
  initial : ∀ us vs, ts = us ++ vs → 0 ≤ depth us

structure Unsplit (ts : List Token) : Prop extends Balanced ts where
  inside : ∀ us c vs, ts = us ++ Token.connective c :: vs → depth us ≠ 0

theorem Balanced.append {ts us : List Token} (hts : Balanced ts) (hus : Balanced us) : Balanced (ts ++ us) where
  total := by rw [depth_append, hts.total, hus.total, add_zero]
  initial xs ys h := by
    rcases List.append_eq_append_iff.mp h with ⟨zs,rfl,hzs⟩ | ⟨zs,hzs,rfl⟩
    · rw [depth_append, hts.total, zero_add]
      exact hus.initial zs ys hzs
    · exact hts.initial xs zs hzs

theorem Balanced.of_append_right {ts us : List Token} (h : Balanced (ts ++ us)) (hus : depth us = 0) : Balanced ts where
  total := by simpa [hus] using h.total
  initial xs ys hts := h.initial xs (ys ++ us) (by rw [hts, List.append_assoc])

theorem Balanced.single {t : Token} (ht : t.weight = 0) : Balanced [t] where
  total := by simp [ht]
  initial us vs h := by
    rcases us with _ | ⟨u,us⟩
    · exact le_rfl
    · obtain ⟨rfl,hus⟩ := List.cons.inj h
      rw [(List.append_eq_nil_iff.mp hus.symm).1]
      simp [ht]

theorem Balanced.cons {t : Token} {ts : List Token} (ht : t.weight = 0) (hts : Balanced ts) : Balanced (t :: ts) :=
  (Balanced.single ht).append hts

theorem Balanced.join {ts us : List Token} (hts : Balanced ts) (c : Connective) (hus : Balanced us) :
    Balanced (ts ++ Token.connective c :: us) := hts.append (hus.cons (weight_connective c))

/-- Inside a group something is open everywhere but at its ends. -/
theorem group_initial {ts us vs : List Token} (hts : Balanced ts)
    (h : Token.lparen :: ts ++ [Token.rparen] = us ++ vs) : us = [] ∨ vs = [] ∨ 1 ≤ depth us := by
  rcases us with _ | ⟨u,us⟩
  · exact Or.inl rfl
  · obtain ⟨rfl,hus⟩ := List.cons.inj h
    rcases List.append_eq_append_iff.mp hus with ⟨zs,rfl,hzs⟩ | ⟨zs,hzs,rfl⟩
    · rcases zs with _ | ⟨z,zs⟩
      · refine Or.inr (Or.inr ?_)
        simp [hts.total]
      · obtain ⟨rfl,hvs⟩ := List.cons.inj hzs
        exact Or.inr (Or.inl (List.append_eq_nil_iff.mp hvs.symm).2)
    · have hpre := hts.initial us zs hzs
      refine Or.inr (Or.inr ?_)
      simp only [depth_cons, weight_lparen]
      omega

theorem Unsplit.group {ts : List Token} (hts : Balanced ts) : Unsplit (Token.lparen :: ts ++ [Token.rparen]) where
  total := by simp [hts.total]
  initial us vs h := by
    rcases group_initial hts h with rfl | rfl | hpos
    · exact le_rfl
    · rw [List.append_nil] at h
      simp [← h, hts.total]
    · omega
  inside us c vs h := by
    rcases group_initial hts h with rfl | hnil | hpos
    · exact absurd (List.cons.inj h).1 (by simp)
    · cases hnil
    · omega

theorem Unsplit.not {ts : List Token} (hts : Unsplit ts) : Unsplit (Token.not :: ts) where
  toBalanced := hts.toBalanced.cons weight_not
  inside us c vs h := by
    rcases us with _ | ⟨u,us⟩
    · exact absurd (List.cons.inj h).1 (by simp)
    · obtain ⟨rfl,hus⟩ := List.cons.inj h
      simpa using hts.inside us c vs hus

/-- Words alone. -/
theorem Unsplit.words {ts : List Token} (h : ∀ t ∈ ts, ∃ w, t = Token.word w) : Unsplit ts := by
  have hdepth : ∀ us : List Token, (∀ t ∈ us, ∃ w, t = Token.word w) → depth us = 0 := by
    intro us hus
    induction us with
    | nil => rfl
    | cons u us ih =>
      obtain ⟨w,rfl⟩ := hus u List.mem_cons_self
      simp [ih fun t ht => hus t (List.mem_cons_of_mem _ ht)]
  refine ⟨⟨hdepth ts h,fun us vs hts => ?_⟩,fun us c vs hts => ?_⟩
  · rw [hdepth us fun t ht => h t (by rw [hts]; exact List.mem_append_left vs ht)]
  · obtain ⟨w,hw⟩ := h (Token.connective c) (by simp [hts])
    cases hw

/-- The last connective outside of all parentheses is in one place only. -/
theorem split_unique {ts us ts' us' : List Token} {c c' : Connective} (hts : Balanced ts) (hus : Unsplit us)
    (hts' : Balanced ts') (hus' : Unsplit us')
    (h : ts ++ Token.connective c :: us = ts' ++ Token.connective c' :: us') : ts = ts' ∧ c = c' ∧ us = us' := by
  rcases List.append_eq_append_iff.mp h with ⟨zs,rfl,hzs⟩ | ⟨zs,rfl,hzs⟩
  · rcases zs with _ | ⟨z,zs⟩
    · obtain ⟨hc,rfl⟩ := List.cons.inj hzs
      exact ⟨(List.append_nil ts).symm,Token.connective.inj hc,rfl⟩
    · obtain ⟨rfl,hrest⟩ := List.cons.inj hzs
      have hdepth : depth zs = 0 := by simpa [hts.total] using hts'.total
      exact absurd hdepth (hus.inside zs c' us' hrest)
  · rcases zs with _ | ⟨z,zs⟩
    · obtain ⟨hc,rfl⟩ := List.cons.inj hzs
      exact ⟨List.append_nil ts',(Token.connective.inj hc).symm,rfl⟩
    · obtain ⟨rfl,hrest⟩ := List.cons.inj hzs
      have hdepth : depth zs = 0 := by simpa [hts'.total] using hts.total
      exact absurd hdepth (hus'.inside zs c us hrest)

/-! ## Meanings -/

/-- The primitives of a language, with the packets that they match behind given tokens. -/
structure Grammar (P : Type*) where
  primitive : List Token → List Token → Set P → Prop
  moves : String → Prop
  unsplit : ∀ {b ts m}, primitive b ts m → Unsplit ts
  not_negation : ∀ {b ts m}, ¬primitive b (Token.not :: ts) m
  not_group : ∀ {b ts m}, Balanced ts → ¬primitive b (Token.lparen :: ts ++ [Token.rparen]) m
  functional : ∀ {b ts m m'}, primitive b ts m → primitive b ts m' → m = m'

def Grammar.Stays {P : Type*} (G : Grammar P) : Token → Prop
  | .word w => ¬G.moves w
  | _ => True

def Grammar.Plain {P : Type*} (G : Grammar P) (ts : List Token) : Prop := ∀ t ∈ ts, G.Stays t

inductive Kind
  | expr
  | term

/-- The packets that an expression or a term matches behind given tokens. -/
inductive Reads {P : Type*} (G : Grammar P) : Kind → List Token → List Token → Set P → Prop
  | primitive {b ts m} (h : G.primitive b ts m) : Reads G .term b ts m
  | not {b ts m} (h : Reads G .term (b ++ [Token.not]) ts m) : Reads G .term b (Token.not :: ts) mᶜ
  | group {b ts m} (h : Reads G .expr (b ++ [Token.lparen]) ts m) :
      Reads G .term b (Token.lparen :: ts ++ [Token.rparen]) m
  | term {b ts m} (h : Reads G .term b ts m) : Reads G .expr b ts m
  | join {b ts us m m'} (c : Connective) (h : Reads G .expr b ts m)
      (h' : Reads G .term (b ++ ts ++ [Token.connective c]) us m') :
      Reads G .expr b (ts ++ Token.connective c :: us) (c.apply m m')

section
variable {P : Type*} {G : Grammar P}

@[simp] theorem plain_nil : G.Plain [] := fun _ h => absurd h List.not_mem_nil

@[simp] theorem plain_cons (t : Token) (ts : List Token) : G.Plain (t :: ts) ↔ G.Stays t ∧ G.Plain ts :=
  List.forall_mem_cons

@[simp] theorem plain_append (ts us : List Token) : G.Plain (ts ++ us) ↔ G.Plain ts ∧ G.Plain us :=
  List.forall_mem_append

@[simp] theorem stays_lparen : G.Stays Token.lparen := trivial

@[simp] theorem stays_rparen : G.Stays Token.rparen := trivial

@[simp] theorem stays_connective (c : Connective) : G.Stays (Token.connective c) := trivial

@[simp] theorem stays_not : G.Stays Token.not := trivial

theorem Reads.balanced_and {k : Kind} {b ts : List Token} {m : Set P} (h : Reads G k b ts m) :
    Balanced ts ∧ (k = .term → Unsplit ts) := by
  induction h with
  | primitive h => exact ⟨(G.unsplit h).toBalanced,fun _ => G.unsplit h⟩
  | not _ ih => exact ⟨(ih.2 rfl).not.toBalanced,fun _ => (ih.2 rfl).not⟩
  | group _ ih => exact ⟨(Unsplit.group ih.1).toBalanced,fun _ => Unsplit.group ih.1⟩
  | term _ ih => exact ⟨ih.1,fun h => by cases h⟩
  | join c _ _ ih ih' => exact ⟨ih.1.join c ih'.1,fun h => by cases h⟩

theorem Reads.balanced {k : Kind} {b ts : List Token} {m : Set P} (h : Reads G k b ts m) : Balanced ts :=
  h.balanced_and.1

theorem Reads.unsplit {b ts : List Token} {m : Set P} (h : Reads G .term b ts m) : Unsplit ts :=
  h.balanced_and.2 rfl

theorem reads_group_iff {b ts : List Token} {m : Set P} (hts : Balanced ts) :
    Reads G .term b (Token.lparen :: ts ++ [Token.rparen]) m ↔ Reads G .expr (b ++ [Token.lparen]) ts m := by
  refine ⟨fun h => ?_,.group⟩
  generalize hg : Token.lparen :: ts ++ [Token.rparen] = us at h
  cases h with
  | primitive h =>
    subst hg
    exact absurd h (G.not_group hts)
  | not _ => exact absurd (List.cons.inj hg).1 (by simp)
  | group h =>
    obtain rfl := (List.append_left_inj [Token.rparen]).mp (List.cons.inj hg).2
    exact h

theorem reads_not_iff {b ts : List Token} {m : Set P} :
    Reads G .term b (Token.not :: ts) m ↔ ∃ m', Reads G .term (b ++ [Token.not]) ts m' ∧ m = m'ᶜ := by
  constructor
  · intro h
    generalize hn : Token.not :: ts = us at h
    cases h with
    | primitive h =>
      subst hn
      exact absurd h G.not_negation
    | not h =>
      cases hn
      exact ⟨_,h,rfl⟩
    | group _ => exact absurd (List.cons.inj hn).1 (by simp)
  · rintro ⟨m',h,rfl⟩
    exact h.not

/-- A list of tokens without a connective of its own is a term. -/
theorem reads_unsplit_iff {b ts : List Token} {m : Set P} (hts : Unsplit ts) :
    Reads G .expr b ts m ↔ Reads G .term b ts m := by
  refine ⟨fun h => ?_,.term⟩
  cases h with
  | term h => exact h
  | join c h _ => exact absurd h.balanced.total (hts.inside _ c _ rfl)

/-- An expression is read at its last connective outside of all parentheses. -/
theorem reads_join_iff {b ts us : List Token} {c : Connective} {m : Set P} (hus : Unsplit us) :
    Reads G .expr b (ts ++ Token.connective c :: us) m ↔
      ∃ m₁ m₂, Reads G .expr b ts m₁ ∧ Reads G .term (b ++ ts ++ [Token.connective c]) us m₂ ∧
        m = c.apply m₁ m₂ := by
  constructor
  · intro h
    have hts : Balanced ts := h.balanced.of_append_right (by simp [hus.total])
    generalize hsplit : ts ++ Token.connective c :: us = vs at h
    cases h with
    | term h =>
      subst hsplit
      exact absurd hts.total (h.unsplit.inside ts c us rfl)
    | join c' h h' =>
      obtain ⟨rfl,rfl,rfl⟩ := split_unique hts hus h.balanced h'.unsplit hsplit
      exact ⟨_,_,h,h',rfl⟩
  · rintro ⟨m₁,m₂,h,h',rfl⟩
    exact h.join c h'

/-- A primitive is read as such. -/
theorem reads_primitive_iff {b ts : List Token} {m : Set P} (hhead : ts.head? ≠ some Token.not)
    (hgroup : ts.head? ≠ some Token.lparen) : Reads G .term b ts m ↔ G.primitive b ts m := by
  refine ⟨fun h => ?_,.primitive⟩
  cases h with
  | primitive h => exact h
  | not _ => exact absurd rfl hhead
  | group _ => exact absurd rfl hgroup

/-- There is one reading at most. -/
theorem Reads.unique {k : Kind} {b ts : List Token} {m m' : Set P} (h : Reads G k b ts m) (h' : Reads G k b ts m') :
    m = m' := by
  induction h generalizing m' with
  | primitive h =>
    generalize hts : Kind.term = k at h'
    cases h' with
    | primitive h' => exact G.functional h h'
    | not _ => exact absurd h G.not_negation
    | group hinner => exact absurd h (G.not_group hinner.balanced)
    | term _ => cases hts
    | join _ _ _ => cases hts
  | not _ ih =>
    obtain ⟨m'',hm'',rfl⟩ := reads_not_iff.mp h'
    rw [ih hm'']
  | group h ih => exact ih ((reads_group_iff h.balanced).mp h')
  | term h ih => exact ih ((reads_unsplit_iff h.unsplit).mp h')
  | join c _ hus ih ih' =>
    obtain ⟨m₁,m₂,h₁,h₂,rfl⟩ := (reads_join_iff hus.unsplit).mp h'
    rw [ih h₁, ih' h₂]

theorem reads_nots_iff (k : ℕ) {b ts : List Token} {m : Set P} :
    Reads G .term b (List.replicate k Token.not ++ ts) m ↔
      ∃ m', Reads G .term (b ++ List.replicate k Token.not) ts m' ∧ m = compl^[k] m' := by
  induction k generalizing b m with
  | zero => simp
  | succ k ih =>
    rw [List.replicate_succ, List.cons_append, reads_not_iff]
    constructor
    · rintro ⟨m₁,h,rfl⟩
      obtain ⟨m',h',rfl⟩ := ih.mp h
      refine ⟨m',?_,(Function.iterate_succ_apply' compl k m').symm⟩
      rwa [List.append_assoc] at h'
    · rintro ⟨m',h,rfl⟩
      refine ⟨compl^[k] m',ih.mpr ⟨m',?_,rfl⟩,Function.iterate_succ_apply' compl k m'⟩
      rwa [List.append_assoc]

/-- A term is a primitive or a group behind negations. -/
theorem Reads.exists_nots {b ts : List Token} {m : Set P} (h : Reads G .term b ts m) :
    ∃ k core, ts = List.replicate k Token.not ++ core ∧
      ((∃ b' m', G.primitive b' core m') ∨ ∃ inner, core = Token.lparen :: inner ++ [Token.rparen] ∧ Balanced inner) := by
  generalize hk : Kind.term = k at h
  induction h with
  | primitive h => exact ⟨0,_,rfl,Or.inl ⟨_,_,h⟩⟩
  | not _ ih =>
    obtain ⟨k,core,rfl,hcore⟩ := ih rfl
    exact ⟨k + 1,core,rfl,hcore⟩
  | group h _ => exact ⟨0,_,rfl,Or.inr ⟨_,rfl,h.balanced⟩⟩
  | term _ _ => cases hk
  | join _ _ _ _ _ => cases hk

/-! ## Meanings that do not depend on what stands before -/

/-- An expression that has the same meaning behind all plain tokens, or none behind any. -/
structure IsExpr (G : Grammar P) (ts : List Token) (o : Option (Set P)) : Prop where
  reads_iff : ∀ b, G.Plain b → ∀ m, Reads G .expr b ts m ↔ o = some m
  balanced : Balanced ts
  plain : G.Plain ts
  nonempty : ts ≠ []

/-- A term that has the same meaning behind all plain tokens, or none behind any. -/
structure IsTerm (G : Grammar P) (ts : List Token) (o : Option (Set P)) : Prop where
  reads_iff : ∀ b, G.Plain b → ∀ m, Reads G .term b ts m ↔ o = some m
  unsplit : Unsplit ts
  plain : G.Plain ts
  nonempty : ts ≠ []

theorem IsTerm.expr {ts : List Token} {o : Option (Set P)} (h : IsTerm G ts o) : IsExpr G ts o where
  reads_iff b hb m := (reads_unsplit_iff h.unsplit).trans (h.reads_iff b hb m)
  balanced := h.unsplit.toBalanced
  plain := h.plain
  nonempty := h.nonempty

theorem IsExpr.group {ts : List Token} {o : Option (Set P)} (h : IsExpr G ts o) :
    IsTerm G (Token.lparen :: ts ++ [Token.rparen]) o where
  reads_iff b hb m := (reads_group_iff h.balanced).trans (h.reads_iff (b ++ [Token.lparen]) (by simp [hb]) m)
  unsplit := .group h.balanced
  plain := by simp [h.plain]
  nonempty := by simp

theorem IsTerm.not {ts : List Token} {o : Option (Set P)} (h : IsTerm G ts o) :
    IsTerm G (Token.not :: ts) (o.map compl) where
  reads_iff b hb m := by
    rw [reads_not_iff, Option.map_eq_some_iff]
    exact exists_congr fun m' => and_congr (h.reads_iff _ (by simp [hb]) m') eq_comm
  unsplit := h.unsplit.not
  plain := by simp [h.plain]
  nonempty := List.cons_ne_nil _ _

theorem IsExpr.join {ts us : List Token} {o o' : Option (Set P)} (h : IsExpr G ts o) (c : Connective)
    (h' : IsTerm G us o') : IsExpr G (ts ++ Token.connective c :: us) (Option.map₂ c.apply o o') where
  reads_iff b hb m := by
    rw [reads_join_iff h'.unsplit, Option.map₂_eq_some_iff]
    refine exists₂_congr fun m₁ m₂ => ?_
    rw [h.reads_iff b hb, h'.reads_iff _ (by simp [hb, h.plain]), eq_comm (a := m)]
    rfl
  balanced := h.balanced.join c h'.unsplit.toBalanced
  plain := by simp [h.plain, h'.plain]
  nonempty := by simp

/-- Words that are a primitive with the same meaning behind all plain tokens. -/
theorem IsTerm.words {ts : List Token} {o : Option (Set P)} (hts : ∀ t ∈ ts, ∃ w, t = Token.word w ∧ ¬G.moves w)
    (hne : ts ≠ []) (h : ∀ b, G.Plain b → ∀ m, G.primitive b ts m ↔ o = some m) : IsTerm G ts o where
  reads_iff b hb m := by
    have hhead : ∀ t, ts.head? = some t → ∃ w, t = Token.word w ∧ ¬G.moves w :=
      fun t ht => hts t (List.mem_of_mem_head? ht)
    refine (reads_primitive_iff ?_ ?_).trans (h b hb m)
    · intro hnot
      obtain ⟨w,hw,-⟩ := hhead _ hnot
      cases hw
    · intro hparen
      obtain ⟨w,hw,-⟩ := hhead _ hparen
      cases hw
  unsplit := .words fun t ht => (hts t ht).imp fun _ hw => hw.1
  plain := by
    intro t ht
    obtain ⟨w,rfl,hw⟩ := hts t ht
    exact hw
  nonempty := hne

def joinTokens (c : Connective) : List (List Token) → List Token
  | [] => []
  | [ts] => ts
  | ts :: us :: rest => ts ++ Token.connective c :: joinTokens c (us :: rest)

theorem mem_joinTokens (c : Connective) {tss : List (List Token)} {ts : List Token} {t : Token} (hts : ts ∈ tss)
    (ht : t ∈ ts) : t ∈ joinTokens c tss := by
  induction tss with
  | nil => exact absurd hts List.not_mem_nil
  | cons us tss ih =>
    cases tss with
    | nil => rwa [List.mem_singleton.mp hts] at ht
    | cons vs tss =>
      rw [joinTokens, List.mem_append, List.mem_cons]
      rcases List.mem_cons.mp hts with rfl | hts
      · exact Or.inl ht
      · exact Or.inr (Or.inr (ih hts))

theorem joinTokens_concat (c : Connective) (tss : List (List Token)) (us : List Token) (h : tss ≠ []) :
    joinTokens c (tss ++ [us]) = joinTokens c tss ++ Token.connective c :: us := by
  induction tss with
  | nil => exact absurd rfl h
  | cons ts tss ih =>
    cases tss with
    | nil => rfl
    | cons vs tss =>
      have hrest := ih (by simp)
      simp only [List.cons_append, joinTokens] at hrest ⊢
      rw [hrest, List.append_assoc, List.cons_append]

section
variable {α : Type*} (o : α → Option (Set P))

open Classical in
noncomputable def anyOf (xs : List α) : Option (Set P) :=
  if ∀ x ∈ xs, (o x).isSome = true then some {p | ∃ x ∈ xs, ∃ m, o x = some m ∧ p ∈ m} else none

theorem anyOf_singleton (x : α) : anyOf o [x] = o x := by
  cases hx : o x with
  | none => simp [anyOf, hx]
  | some m => simp [anyOf, hx]

theorem anyOf_concat (xs : List α) (x : α) :
    anyOf o (xs ++ [x]) = Option.map₂ (Connective.or.apply) (anyOf o xs) (o x) := by
  classical
  cases hx : o x with
  | none =>
    rw [Option.map₂_none_right, anyOf, if_neg]
    intro h
    exact absurd (h x (by simp)) (by simp [hx])
  | some m =>
    by_cases hall : ∀ y ∈ xs, (o y).isSome = true
    · have hall' : ∀ y ∈ xs ++ [x], (o y).isSome = true := by
        intro y hy
        rcases List.mem_append.mp hy with hy | hy
        · exact hall y hy
        · rw [List.mem_singleton.mp hy, hx]
          rfl
      rw [anyOf, anyOf, if_pos hall, if_pos hall', Option.map₂_some_some]
      congr 1
      ext p
      simp only [Set.mem_ofPred_eq, List.mem_append, List.mem_singleton, Connective.apply, Set.mem_union]
      constructor
      · rintro ⟨y,hy | rfl,m',hm',hp⟩
        · exact Or.inl ⟨y,hy,m',hm',hp⟩
        · rw [hx, Option.some_inj] at hm'
          exact Or.inr (hm' ▸ hp)
      · rintro (⟨y,hy,m',hm',hp⟩ | hp)
        · exact ⟨y,Or.inl hy,m',hm',hp⟩
        · exact ⟨x,Or.inr rfl,m,hx,hp⟩
    · rw [anyOf, anyOf, if_neg hall, if_neg fun h => hall fun y hy => h y (List.mem_append_left _ hy)]
      rfl

/-- Alternatives joined by `or`, from the left to the right. -/
theorem isExpr_joinTokens (t : α → List Token) (xs : List α) (h : ∀ x ∈ xs, IsTerm G (t x) (o x)) (hxs : xs ≠ []) :
    IsExpr G (joinTokens .or (xs.map t)) (anyOf o xs) := by
  induction xs using List.reverseRecOn with
  | nil => exact absurd rfl hxs
  | append_singleton xs x ih =>
    have hx := h x (by simp)
    by_cases hnil : xs = []
    · subst hnil
      rw [List.nil_append, anyOf_singleton]
      exact hx.expr
    · rw [List.map_append, List.map_singleton, joinTokens_concat _ _ _ (by simpa using hnil), anyOf_concat]
      exact (ih (fun y hy => h y (List.mem_append_left _ hy)) hnil).join .or hx

theorem anyOf_eq_some {xs : List α} {f : α → Set P} (h : ∀ x ∈ xs, o x = some (f x)) :
    anyOf o xs = some {p | ∃ x ∈ xs, p ∈ f x} := by
  classical
  rw [anyOf, if_pos fun x hx => by rw [h x hx]; rfl]
  congr 1
  ext p
  constructor
  · rintro ⟨x,hx,m,hm,hp⟩
    rw [h x hx, Option.some_inj] at hm
    exact ⟨x,hx,hm ▸ hp⟩
  · rintro ⟨x,hx,hp⟩
    exact ⟨x,hx,f x,h x hx,hp⟩

theorem anyOf_eq_none {xs : List α} {x : α} (hx : x ∈ xs) (h : o x = none) : anyOf o xs = none := by
  classical
  rw [anyOf, if_neg]
  intro hall
  exact absurd (hall x hx) (by simp [h])

end
end

end Retina.FilterGrammar
