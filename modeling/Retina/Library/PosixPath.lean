import Mathlib

/-! # Lexical paths

Paths are words over an alphabet with a separator and a dot. Cleaning, joining and
relativisation work on the segments between the separators and never look at a file system.
A segment is plain if it is a name: neither empty nor one or two dots.
-/
namespace Retina.PosixPath
variable {α : Type*} [DecidableEq α]

section Splitting

omit [DecidableEq α] in
theorem splitOnP_congr {p q : α → Bool} {xs : List α} (h : ∀ x ∈ xs, p x = q x) :
    xs.splitOnP p = xs.splitOnP q := by
  induction xs with
  | nil => rfl
  | cons x xs ih =>
    rw [List.splitOnP_cons_eq_if_modifyHead, List.splitOnP_cons_eq_if_modifyHead, h x List.mem_cons_self,
      ih fun y hy => h y (List.mem_cons_of_mem x hy)]

/-- A segment has no separator and only what the word has. -/
theorem mem_of_mem_splitOn {sep x : α} {xs s : List α} (hs : s ∈ xs.splitOn sep) (hx : x ∈ s) : x ∈ xs ∧ x ≠ sep := by
  induction xs generalizing s with
  | nil =>
    rw [List.splitOn_nil, List.mem_singleton] at hs
    rw [hs] at hx
    cases hx
  | cons y xs ih =>
    rw [List.splitOn, List.splitOnP_cons_eq_if_modifyHead] at hs
    obtain ⟨first,rest,he⟩ := List.exists_cons_of_ne_nil (List.splitOnP_ne_nil (· == sep) xs)
    have hlater : ∀ t ∈ first :: rest, x ∈ t → x ∈ y :: xs ∧ x ≠ sep := fun t ht hxt =>
      (ih (by rwa [List.splitOn, he]) hxt).imp_left (List.mem_cons_of_mem y)
    rw [he] at hs
    by_cases hy : y = sep
    · rw [if_pos (beq_iff_eq.mpr hy)] at hs
      rcases List.mem_cons.mp hs with rfl | hs
      · cases hx
      · exact hlater s hs hx
    · rw [if_neg (by simpa using hy)] at hs
      rcases List.mem_cons.mp hs with rfl | hs
      · rcases List.mem_cons.mp hx with rfl | hx
        · exact ⟨List.mem_cons_self,hy⟩
        · exact hlater first List.mem_cons_self hx
      · exact hlater s (List.mem_cons_of_mem first hs) hx

/-- Splitting at more places refines a split. -/
theorem splitOnP_eq_flatMap {p : α → Bool} {sep : α} (hp : p sep = true) (xs : List α) :
    xs.splitOnP p = (xs.splitOn sep).flatMap fun s => s.splitOnP p := by
  induction xs with
  | nil => rfl
  | cons x xs ih =>
    obtain ⟨first,rest,he⟩ := List.exists_cons_of_ne_nil (List.splitOnP_ne_nil (· == sep) xs)
    rw [List.splitOn, List.splitOnP_cons_eq_if_modifyHead, List.splitOnP_cons_eq_if_modifyHead, ih, List.splitOn, he]
    by_cases hx : x = sep
    · rw [if_pos (hx ▸ hp), if_pos (beq_iff_eq.mpr hx)]
      rfl
    · rw [if_neg (by simpa using hx : ¬(x == sep) = true)]
      obtain ⟨head,tail,hf⟩ := List.exists_cons_of_ne_nil (List.splitOnP_ne_nil p first)
      simp only [List.modifyHead_cons, List.flatMap_cons, List.splitOnP_cons_eq_if_modifyHead, hf]
      split <;> rfl

/-- A segment that the finer split leaves alone is one of its segments too. -/
theorem mem_splitOnP_of_mem_splitOn {p : α → Bool} {sep : α} (hp : p sep = true) {xs s : List α}
    (hs : s ∈ xs.splitOn sep) (h : ∀ x ∈ s, p x = false) : s ∈ xs.splitOnP p := by
  rw [splitOnP_eq_flatMap hp]
  refine List.mem_flatMap.mpr ⟨s,hs,?_⟩
  rw [List.splitOnP_eq_singleton fun x hx => by simp [h x hx]]
  exact List.mem_singleton_self s

theorem splitOn_append_cons (sep : α) (xs ys : List α) :
    (xs ++ sep :: ys).splitOn sep = xs.splitOn sep ++ ys.splitOn sep := by
  induction xs with
  | nil => simp [List.splitOn, List.splitOnP_cons_eq_if_modifyHead]
  | cons x xs ih =>
    obtain ⟨first,rest,he⟩ := List.exists_cons_of_ne_nil (List.splitOnP_ne_nil (· == sep) xs)
    rw [List.cons_append, List.splitOn, List.splitOn, List.splitOnP_cons_eq_if_modifyHead,
      List.splitOnP_cons_eq_if_modifyHead]
    rw [List.splitOn, List.splitOn, he] at ih
    rw [ih, he]
    split <;> rfl

end Splitting

/-! ## The operations -/

section Operations
variable (sep dot : α)

def isAbs (p : List α) : Bool := p.head? = some sep

/-- A segment that cleaning keeps or resolves. -/
def Counts (s : List α) : Prop := s ≠ [] ∧ s ≠ [dot]

instance (s : List α) : Decidable (Counts dot s) := inferInstanceAs (Decidable (_ ∧ _))

/-- The segments seen so far are a stack. Two dots take the last one away, except where there is
none: at the root they are dropped, in a relative path they stay. -/
def cleanStep (rooted : Bool) (stack : List (List α)) (s : List α) : List (List α) :=
  if ¬Counts dot s then stack
  else if s = [dot,dot] then
    match stack with
    | [] => if rooted then [] else [s]
    | top :: below => if top = [dot,dot] then s :: stack else below
  else s :: stack

def cleanSegments (rooted : Bool) (p : List α) : List (List α) :=
  ((p.splitOn sep).foldl (cleanStep dot rooted) []).reverse

def render (rooted : Bool) (segments : List (List α)) : List α :=
  if rooted then sep :: [sep].intercalate segments
  else if segments = [] then [dot]
  else [sep].intercalate segments

def clean (p : List α) : List α := render sep dot (isAbs sep p) (cleanSegments sep dot (isAbs sep p) p)

/-- Empty elements ahead of the first other one are left out. -/
def join (elements : List (List α)) : List α :=
  let rest := elements.dropWhile (· = [])
  if rest = [] then [] else clean sep dot ([sep].intercalate rest)

def words (p : List α) : List (List α) := (p.splitOn sep).filter (· ≠ [])

def stripCommon {β : Type*} [DecidableEq β] : List β → List β → List β × List β
  | a :: as,b :: bs => if a = b then stripCommon as bs else (a :: as,b :: bs)
  | as,bs => (as,bs)

/-- How to go from the base to the target; there is no answer where that depends on the files. -/
def rel (base target : List α) : Option (List α) :=
  let base := clean sep dot base
  let target := clean sep dot target
  if target = base then some [dot]
  else if isAbs sep base ≠ isAbs sep target then none
  else
    let left := stripCommon (if base = [dot] then [] else words sep base) (words sep target)
    if left.1.head? = some [dot,dot] then none
    else some ([sep].intercalate (left.1.map (fun _ => [dot,dot]) ++ left.2))

def base (p : List α) : List α :=
  if p = [] then [dot]
  else
    let last := (p.rdropWhile (· = sep)).rtakeWhile (· ≠ sep)
    if last = [] then [sep] else last

structure Plain (s : List α) : Prop where
  counts : Counts dot s
  ne_dotdot : s ≠ [dot,dot]
  not_mem : sep ∉ s

def Named (p : List α) : Prop :=
  ∃ segments ≠ [], (∀ s ∈ segments, Plain sep dot s) ∧ p = render sep dot true segments

end Operations

/-! ## Clean paths -/

section Clean
variable {sep dot : α} {segments bs ss : List (List α)}

theorem foldl_cleanStep_of_not_mem (rooted : Bool) (h : [dot,dot] ∉ segments) (stack : List (List α)) :
    segments.foldl (cleanStep dot rooted) stack = (segments.filter (Counts dot ·)).reverse ++ stack := by
  induction segments generalizing stack with
  | nil => rfl
  | cons s segments ih =>
    rw [List.mem_cons, not_or] at h
    rw [List.foldl_cons, ih h.2, List.filter_cons]
    by_cases hs : Counts dot s
    · simp [cleanStep, hs, Ne.symm h.1]
    · simp [cleanStep, hs]

/-- Without two dots, cleaning only leaves out. -/
theorem cleanSegments_of_not_mem (rooted : Bool) {p : List α} (h : [dot,dot] ∉ p.splitOn sep) :
    cleanSegments sep dot rooted p = (p.splitOn sep).filter (Counts dot ·) := by
  rw [cleanSegments, foldl_cleanStep_of_not_mem rooted h, List.append_nil, List.reverse_reverse]

/-- What holds of names, and of two dots in a relative path, holds of every segment of the stack. -/
theorem cleanStep_forall {rooted : Bool} {P : List α → Prop} (hplain : ∀ s, Plain sep dot s → P s)
    (hdots : rooted = false → P [dot,dot]) {stack : List (List α)} (hstack : ∀ s ∈ stack, P s) {s : List α}
    (hs : sep ∉ s) : ∀ t ∈ cleanStep dot rooted stack s, P t := by
  by_cases hcounts : Counts dot s
  · by_cases hs' : s = [dot,dot]
    · subst hs'
      cases stack with
      | nil => cases rooted <;> simp_all [cleanStep]
      | cons top below =>
        have hbelow := List.forall_mem_cons.mp hstack
        by_cases htop : top = [dot,dot]
        · simpa [cleanStep, hcounts, htop] using ⟨htop ▸ hbelow.1,hbelow.2⟩
        · simpa [cleanStep, hcounts, htop] using hbelow.2
    · simpa [cleanStep, hcounts, hs'] using ⟨hplain s ⟨hcounts,hs',hs⟩,hstack⟩
  · simpa [cleanStep, hcounts] using hstack

theorem cleanSegments_forall {rooted : Bool} {P : List α → Prop} (hplain : ∀ s, Plain sep dot s → P s)
    (hdots : rooted = false → P [dot,dot]) (p : List α) : ∀ s ∈ cleanSegments sep dot rooted p, P s := by
  have hfold : ∀ (segments stack : List (List α)), (∀ s ∈ segments, sep ∉ s) → (∀ s ∈ stack, P s) →
      ∀ s ∈ segments.foldl (cleanStep dot rooted) stack, P s := by
    intro segments
    induction segments with
    | nil => exact fun stack _ h => h
    | cons s segments ih =>
      intro stack hsegments hstack
      rw [List.forall_mem_cons] at hsegments
      exact ih _ hsegments.2 (cleanStep_forall hplain hdots hstack hsegments.1)
  intro s hs
  exact hfold _ [] (fun t ht hmem => (mem_of_mem_splitOn ht hmem).2 rfl) (by simp) s (List.mem_reverse.mp hs)

/-- No dots are left below the root. -/
theorem cleanSegments_plain (p : List α) : ∀ s ∈ cleanSegments sep dot true p, Plain sep dot s :=
  cleanSegments_forall (fun _ h => h) (fun h => by cases h) p

omit [DecidableEq α] in
theorem not_mem_of_plain (h : ∀ s ∈ segments, Plain sep dot s) : [dot,dot] ∉ segments :=
  fun hmem => (h _ hmem).ne_dotdot rfl

theorem filter_counts_of_plain (h : ∀ s ∈ segments, Plain sep dot s) :
    segments.filter (Counts dot ·) = segments :=
  List.filter_eq_self.mpr fun s hs => decide_eq_true (h s hs).counts

/-- The segments of a text of names are the names, up to one that is empty. -/
theorem splitOn_intercalate_plain (h : ∀ s ∈ segments, Plain sep dot s) :
    ([sep].intercalate segments).splitOn sep = if segments = [] then [[]] else segments := by
  split_ifs with hne
  · rw [hne]
    rfl
  · exact List.splitOn_intercalate sep (fun s hs => (h s hs).not_mem) hne

theorem plain_of_mem_splitOn (h : ∀ s ∈ segments, Plain sep dot s) (hne : segments ≠ []) {xs : List α}
    (hxs : [sep].intercalate segments = xs) : ∀ s ∈ xs.splitOn sep, Plain sep dot s := by
  rw [← hxs, splitOn_intercalate_plain h, if_neg hne]
  exact h

theorem splitOn_render (h : ∀ s ∈ segments, Plain sep dot s) :
    (render sep dot true segments).splitOn sep = [] :: if segments = [] then [[]] else segments := by
  have hsplit := splitOn_append_cons sep [] ([sep].intercalate segments)
  rwa [splitOn_intercalate_plain h] at hsplit

theorem isAbs_render (segments : List (List α)) : isAbs sep (render sep dot true segments) = true := by
  simp [isAbs, render]

theorem isAbs_eq_true_iff {p : List α} : isAbs sep p = true ↔ ∃ rest, p = sep :: rest := by
  cases p <;> simp [isAbs, eq_comm]

/-- The first segment begins the text. -/
theorem isAbs_intercalate {x : α} {s : List α} (hs : s ≠ []) (hx : x ∉ s) (rest : List (List α)) :
    isAbs x ([sep].intercalate (s :: rest)) = false := by
  obtain ⟨y,s,rfl⟩ := List.exists_cons_of_ne_nil hs
  have hy : y ≠ x := fun h => hx (h ▸ List.mem_cons_self)
  cases rest <;> simp [isAbs, List.intercalate, hy]

/-- Cleaning keeps a path rooted or not. -/
theorem isAbs_clean (hdot : dot ≠ sep) (p : List α) : isAbs sep (clean sep dot p) = isAbs sep p := by
  rw [clean]
  cases hp : isAbs sep p with
  | true => exact isAbs_render _
  | false =>
    have hall : ∀ s ∈ cleanSegments sep dot false p, s ≠ [] ∧ sep ∉ s :=
      cleanSegments_forall (fun s hs => ⟨hs.counts.1,hs.not_mem⟩) (fun _ => by simp [Ne.symm hdot]) p
    cases hsegments : cleanSegments sep dot false p with
    | nil => simp [render, isAbs, hdot]
    | cons s rest =>
      obtain ⟨hne,hmem⟩ := hall s (hsegments ▸ List.mem_cons_self)
      simpa [render] using isAbs_intercalate hne hmem rest

theorem words_render (h : ∀ s ∈ segments, Plain sep dot s) : words sep (render sep dot true segments) = segments := by
  rw [words, splitOn_render h]
  split_ifs with hne
  · simp [hne]
  · rw [List.filter_cons_of_neg (by simp)]
    exact List.filter_eq_self.mpr fun s hs => decide_eq_true (h s hs).counts.1

theorem clean_render (h : ∀ s ∈ segments, Plain sep dot s) :
    clean sep dot (render sep dot true segments) = render sep dot true segments := by
  have hsplit := splitOn_render h
  have hmem : [dot,dot] ∉ (render sep dot true segments).splitOn sep := by
    rw [hsplit]
    split_ifs
    · simp
    · simpa using not_mem_of_plain h
  rw [clean, isAbs_render, cleanSegments_of_not_mem true hmem, hsplit]
  split_ifs with hne
  · simp [hne, Counts]
  · rw [List.filter_cons_of_neg (by simp [Counts]), filter_counts_of_plain h]

theorem clean_of_relative {p : List α} (habs : isAbs sep p = false) (h : [dot,dot] ∉ p.splitOn sep) :
    clean sep dot p = render sep dot false ((p.splitOn sep).filter (Counts dot ·)) := by
  rw [clean, habs, cleanSegments_of_not_mem false h]

theorem plain_of_mem_filter {p : List α} (h : [dot,dot] ∉ p.splitOn sep) :
    ∀ s ∈ (p.splitOn sep).filter (Counts dot ·), Plain sep dot s := by
  intro s hs
  obtain ⟨hmem,hcounts⟩ := List.mem_filter.mp hs
  exact ⟨of_decide_eq_true hcounts,fun he => h (he ▸ hmem),fun hsep => (mem_of_mem_splitOn hmem hsep).2 rfl⟩

omit [DecidableEq α] in
theorem intercalate_append (hb : bs ≠ []) (hs : ss ≠ []) :
    [sep].intercalate (bs ++ ss) = [sep].intercalate bs ++ sep :: [sep].intercalate ss := by
  induction bs with
  | nil => exact absurd rfl hb
  | cons b bs ih =>
    cases bs with
    | nil =>
      obtain ⟨s,ss,rfl⟩ := List.exists_cons_of_ne_nil hs
      simp [List.intercalate]
    | cons b' bs =>
      have := ih (by simp)
      simp only [List.intercalate, List.cons_append, List.intersperse_cons_cons, List.flatten_cons] at this ⊢
      rw [this]
      simp

/-- A name below a clean base. -/
theorem render_append (hs : ss ≠ []) (hb : ∀ s ∈ bs, Plain sep dot s) :
    render sep dot true (bs ++ ss) =
      (if render sep dot true bs = [sep] then [sep] else render sep dot true bs ++ [sep]) ++ [sep].intercalate ss := by
  cases bs with
  | nil => rw [if_pos (by rfl)]; rfl
  | cons b bs =>
    have hne : render sep dot true (b :: bs) ≠ [sep] := by
      intro h
      have hw := words_render hb
      rw [h] at hw
      simp [words, List.splitOn, List.splitOnP_cons_eq_if_modifyHead] at hw
    rw [if_neg hne]
    simpa [render] using intercalate_append (List.cons_ne_nil b bs) hs

theorem join_render (hb : ∀ s ∈ bs, Plain sep dot s) (hs : ∀ s ∈ ss, Plain sep dot s) (hne : ss ≠ []) :
    join sep dot [render sep dot true bs,[sep].intercalate ss] = render sep dot true (bs ++ ss) := by
  have hsplit : (render sep dot true bs ++ sep :: [sep].intercalate ss).splitOn sep =
      ([] :: if bs = [] then [[]] else bs) ++ ss := by
    rw [splitOn_append_cons, splitOn_render hb, splitOn_intercalate_plain hs, if_neg hne]
  have habs : isAbs sep (render sep dot true bs ++ sep :: [sep].intercalate ss) = true := by simp [isAbs, render]
  have hmem : [dot,dot] ∉ (render sep dot true bs ++ sep :: [sep].intercalate ss).splitOn sep := by
    rw [hsplit]
    have hss := not_mem_of_plain hs
    split_ifs
    · simpa using hss
    · simpa using ⟨not_mem_of_plain hb,hss⟩
  have hjoin : join sep dot [render sep dot true bs,[sep].intercalate ss] =
      clean sep dot (render sep dot true bs ++ sep :: [sep].intercalate ss) := by
    simp [join, render, List.intercalate, List.dropWhile]
  rw [hjoin, clean, habs, cleanSegments_of_not_mem true hmem, hsplit, List.filter_append, filter_counts_of_plain hs]
  split_ifs with hb'
  · simp [hb', Counts]
  · rw [List.filter_cons_of_neg (by simp [Counts]), filter_counts_of_plain hb]

theorem stripCommon_append {β : Type*} [DecidableEq β] (as bs : List β) : stripCommon as (as ++ bs) = ([],bs) := by
  induction as with
  | nil => cases bs <;> rfl
  | cons a as ih => rw [List.cons_append, stripCommon, if_pos rfl, ih]

theorem rel_render (hb : ∀ s ∈ bs, Plain sep dot s) (hs : ∀ s ∈ ss, Plain sep dot s) (hne : ss ≠ []) :
    rel sep dot (render sep dot true bs) (render sep dot true (bs ++ ss)) = some ([sep].intercalate ss) := by
  have hall : ∀ s ∈ bs ++ ss, Plain sep dot s := List.forall_mem_append.mpr ⟨hb,hs⟩
  have hdiff : render sep dot true (bs ++ ss) ≠ render sep dot true bs := by
    intro h
    have hw := congrArg (words sep) h
    rw [words_render hall, words_render hb] at hw
    exact hne (List.append_right_eq_self.mp hw)
  have hbase : (if render sep dot true bs = [dot] then [] else words sep (render sep dot true bs)) = bs := by
    split_ifs with h
    · have hsep : sep = dot := (List.cons.inj h).1
      rw [← words_render hb, h, hsep]
      simp [words, List.splitOn, List.splitOnP_cons_eq_if_modifyHead]
    · exact words_render hb
  simp only [rel, clean_render hb, clean_render hall, if_neg hdiff, isAbs_render, ne_eq, not_true_eq_false, if_false,
    hbase, words_render hall, stripCommon_append, List.head?_nil, reduceCtorEq, List.map_nil, List.nil_append]

omit [DecidableEq α] in
theorem render_concat (hb : bs ≠ []) (s : List α) :
    render sep dot true (bs ++ [s]) = render sep dot true bs ++ sep :: s := by
  rw [render, render, if_pos rfl, if_pos rfl, intercalate_append hb (List.cons_ne_nil s [])]
  simp [List.intercalate]

variable {p s : List α}

/-- A name below a clean path. -/
theorem Named.join_name (hp : Named sep dot p) (hs : Plain sep dot s) : join sep dot [p,s] = p ++ sep :: s := by
  obtain ⟨bs,hne,hb,rfl⟩ := hp
  rw [← render_concat hne, ← join_render hb (List.forall_mem_singleton.mpr hs) (List.cons_ne_nil s [])]
  simp [List.intercalate]

omit [DecidableEq α] in
theorem Named.concat (hp : Named sep dot p) (hs : Plain sep dot s) : Named sep dot (p ++ sep :: s) := by
  obtain ⟨bs,hne,hb,rfl⟩ := hp
  exact ⟨bs ++ [s],by simp,List.forall_mem_append.mpr ⟨hb,List.forall_mem_singleton.mpr hs⟩,(render_concat hne s).symm⟩

/-- A clean path below a relative name. -/
theorem Named.join_relative (hp : Named sep dot p) (hs : Plain sep dot s) : join sep dot [s,p] = s ++ p := by
  obtain ⟨bs,hne,hb,rfl⟩ := hp
  have hsplit : (s ++ sep :: render sep dot true bs).splitOn sep = s :: [] :: bs := by
    have hsingle : s.splitOn sep = [s] := by
      simpa [List.intercalate] using splitOn_intercalate_plain (List.forall_mem_singleton.mpr hs)
    rw [splitOn_append_cons, splitOn_render hb, if_neg hne, hsingle, List.singleton_append]
  have habs : isAbs sep (s ++ sep :: render sep dot true bs) = false := by
    obtain ⟨x,s,rfl⟩ := List.exists_cons_of_ne_nil hs.counts.1
    have hx : x ≠ sep := fun h => hs.not_mem (h ▸ List.mem_cons_self)
    simp [isAbs, hx]
  have hmem : [dot,dot] ∉ (s ++ sep :: render sep dot true bs).splitOn sep := by
    rw [hsplit, List.mem_cons, List.mem_cons, not_or, not_or]
    exact ⟨Ne.symm hs.ne_dotdot,by simp,not_mem_of_plain hb⟩
  have hfilter : (s :: [] :: bs).filter (Counts dot ·) = s :: bs := by
    rw [List.filter_cons_of_pos (by simpa using hs.counts), List.filter_cons_of_neg (by simp [Counts]),
      filter_counts_of_plain hb]
  have hjoin : join sep dot [s,render sep dot true bs] = clean sep dot (s ++ sep :: render sep dot true bs) := by
    rw [join, List.dropWhile_cons_of_neg (by simpa using hs.counts.1), if_neg (List.cons_ne_nil _ _)]
    simp [List.intercalate]
  have hrest : [sep].intercalate ([s] ++ bs) = _ := intercalate_append (List.cons_ne_nil s []) hne
  rw [hjoin, clean_of_relative habs hmem, hsplit, hfilter]
  simpa [render, List.intercalate] using hrest

theorem base_append_cons (hs : s ≠ []) (hmem : sep ∉ s) (p : List α) :
    base sep dot (p ++ sep :: s) = s := by
  have hlast : (p ++ sep :: s).rdropWhile (· = sep) = p ++ sep :: s := by
    refine List.rdropWhile_eq_self_iff.mpr fun hne hlast => hmem ?_
    have hmem' := List.getLast_mem hs
    simp only [List.getLast_append_of_ne_nil _ (List.cons_ne_nil sep s), List.getLast_cons hs, decide_eq_true_eq] at hlast
    rwa [hlast] at hmem'
  have htake : (p ++ sep :: s).rtakeWhile (· ≠ sep) = s := by
    have hall : ∀ x ∈ s.reverse, decide (x ≠ sep) = true := fun x hx =>
      decide_eq_true fun he => hmem (he ▸ List.mem_reverse.mp hx)
    rw [List.rtakeWhile, List.reverse_append, List.reverse_cons, List.append_assoc, List.takeWhile_append_of_pos hall]
    simp
  rw [base, if_neg (by simp), hlast, htake]
  exact if_neg hs

end Clean
end Retina.PosixPath
