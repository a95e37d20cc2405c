import Retina.Library.PosixPath

/-! # Host paths

`pkg/capture/hostpath_validation.go`. The host path of a capture is a name below a base
directory of the operator. Texts are the bytes of the source's strings; what it tests for is
ASCII, so that nothing depends on how they encode other characters.
-/
namespace Retina.Capture
open PosixPath

abbrev GoString := List UInt8

def ascii (s : String) : GoString := s.toList.map fun c => UInt8.ofNat c.toNat

def slash : UInt8 := 47

def dot : UInt8 := 46

def backslash : UInt8 := 92

def defaultHostPathBaseDir : GoString := ascii "/var/log/retina/captures"

inductive HostPathError
  | empty
  | absolute (raw : GoString)
  | traversal (raw : GoString)
  | escapesBase (raw joined cleanedBase : GoString)
  | baseDir (baseDir : GoString)

/-- The message of an error; `quote` is `strconv.Quote`. -/
def HostPathError.text (quote : GoString → GoString) : HostPathError → GoString
  | .empty => ascii "hostPath is empty"
  | .absolute raw => ascii "hostPath must be a relative subpath name, not an absolute path: " ++ quote raw
  | .traversal raw => ascii "hostPath must not contain '..' path segments: " ++ quote raw
  | .escapesBase raw joined cleanedBase =>
    ascii "hostPath resolves outside the configured base directory: " ++ quote raw ++ ascii " resolves to " ++
      quote joined ++ ascii " (base " ++ quote cleanedBase ++ ascii ")"
  | .baseDir dir => ascii "invalid hostPath base directory: " ++ quote dir ++ ascii " must be absolute"

/-- A drive letter, a colon and a separator of either kind. -/
def winDriveLetter : GoString → Bool
  | letter :: colon :: separator :: _ =>
    ((65 ≤ letter && letter ≤ 90) || (97 ≤ letter && letter ≤ 122)) && colon == 58 &&
      (separator == backslash || separator == slash)
  | _ => false

def isSeparator (b : UInt8) : Bool := b == slash || b == backslash

def fieldsFunc (p : UInt8 → Bool) (s : GoString) : List GoString := (s.splitOnP p).filter (· ≠ [])

def containsParentSegment (p : GoString) : Bool := (fieldsFunc isSeparator p).any (· = [dot,dot])

def baseOrDefault (baseDir : GoString) : GoString := if baseDir = [] then defaultHostPathBaseDir else baseDir

def validateHostPath (raw baseDir : GoString) : Except HostPathError GoString :=
  if raw = [] then .error .empty
  else
    let baseDir := baseOrDefault baseDir
    let cleanedBase := clean slash dot baseDir
    if !isAbs slash cleanedBase then .error (.baseDir baseDir)
    else if isAbs slash raw || [slash].isPrefixOf raw || [backslash].isPrefixOf raw || winDriveLetter raw then
      .error (.absolute raw)
    else if containsParentSegment raw then .error (.traversal raw)
    else
      let cleanedSub := clean slash dot raw
      if cleanedSub = [dot] ∨ cleanedSub = [] then .error .empty
      else if isAbs slash cleanedSub || [slash].isPrefixOf cleanedSub || [backslash].isPrefixOf cleanedSub then
        .error (.absolute raw)
      else if containsParentSegment cleanedSub then .error (.traversal raw)
      else
        let joined := clean slash dot (join slash dot [cleanedBase,cleanedSub])
        match rel slash dot cleanedBase joined with
        | none => .error (.escapesBase raw joined cleanedBase)
        | some rel =>
          if rel = [dot,dot] ∨ [dot,dot,slash].isPrefixOf rel then .error (.escapesBase raw joined cleanedBase)
          else .ok joined

structure OutputError where
  hostPath : HostPathError

def OutputError.text (quote : GoString → GoString) (e : OutputError) : GoString :=
  ascii "invalid OutputConfiguration.HostPath: " ++ e.hostPath.text quote

/-- The path on the node that an output configuration asks for, the empty one if it asks for none. -/
def resolveHostPath (hostPath : Option GoString) (captureHostPathBaseDir : GoString) :
    Except OutputError GoString :=
  match hostPath with
  | none => .ok []
  | some hostPath => (validateHostPath hostPath captureHostPathBaseDir).mapError OutputError.mk

/-! ## The two splitters -/

theorem dot_ne_slash : dot ≠ slash := by decide

theorem containsParentSegment_iff (p : GoString) :
    containsParentSegment p = true ↔ [dot,dot] ∈ p.splitOnP isSeparator := by
  simp [containsParentSegment, fieldsFunc]

/-- Both splitters find two dots between slashes. -/
theorem not_mem_splitOn_of_containsParentSegment {p : GoString} (h : containsParentSegment p = false) :
    [dot,dot] ∉ p.splitOn slash := by
  intro hmem
  have hfields := mem_splitOnP_of_mem_splitOn (by decide : isSeparator slash = true) hmem
    (by simp [isSeparator, dot, slash, backslash])
  rw [← containsParentSegment_iff, h] at hfields
  cases hfields

theorem containsParentSegment_of_not_mem {p : GoString} (hp : backslash ∉ p) (h : [dot,dot] ∉ p.splitOn slash) :
    containsParentSegment p = false := by
  rw [← Bool.not_eq_true, containsParentSegment_iff]
  have hcongr : p.splitOnP isSeparator = p.splitOn slash :=
    splitOnP_congr fun b hb => by simp [isSeparator, show b ≠ backslash from fun he => hp (he ▸ hb)]
  rwa [hcongr]

/-- The fields of a text of segments are fields of each text with these segments. -/
theorem containsParentSegment_intercalate {p : GoString} {segments : List GoString}
    (hplain : ∀ s ∈ segments, Plain slash dot s) (hne : segments ≠ []) (hsub : ∀ s ∈ segments, s ∈ p.splitOn slash)
    (h : containsParentSegment p = false) : containsParentSegment ([slash].intercalate segments) = false := by
  rw [← Bool.not_eq_true, containsParentSegment_iff,
    splitOnP_eq_flatMap (by decide : isSeparator slash = true)] at h ⊢
  rw [splitOn_intercalate_plain hplain, if_neg hne]
  intro hmem
  obtain ⟨s,hs,hfields⟩ := List.mem_flatMap.mp hmem
  exact h (List.mem_flatMap.mpr ⟨s,hsub s hs,hfields⟩)

/-! ## Accepted paths -/

def subSegments (raw : GoString) : List GoString := (raw.splitOn slash).filter (Counts dot ·)

def looksAbsolute (raw : GoString) : Bool :=
  isAbs slash raw || [slash].isPrefixOf raw || [backslash].isPrefixOf raw || winDriveLetter raw

theorem isPrefixOf_singleton (b : UInt8) (s : GoString) : [b].isPrefixOf s = isAbs b s := by
  cases s with
  | nil => rfl
  | cons c s => simp [isAbs, List.isPrefixOf, beq_eq_decide, eq_comm]

/-- A text of names is neither empty nor a dot, it is not absolute and it does not go up. -/
theorem intercalate_cases {segments : List GoString} (hplain : ∀ s ∈ segments, Plain slash dot s) (hne : segments ≠ []) :
    [slash].intercalate segments ≠ [dot] ∧ [slash].intercalate segments ≠ [] ∧
      isAbs slash ([slash].intercalate segments) = false ∧ [slash].intercalate segments ≠ [dot,dot] ∧
      [dot,dot,slash].isPrefixOf ([slash].intercalate segments) = false := by
  have hall : ∀ xs, [slash].intercalate segments = xs → ∀ s ∈ xs.splitOn slash, Plain slash dot s :=
    fun xs h => plain_of_mem_splitOn hplain hne h
  refine ⟨fun h => ?_,fun h => ?_,?_,fun h => ?_,?_⟩
  · exact (hall _ h [dot] (by decide)).counts.2 rfl
  · exact (hall _ h [] (by decide)).counts.1 rfl
  · rw [← Bool.not_eq_true, isAbs_eq_true_iff]
    rintro ⟨rest,h⟩
    have hsplit := splitOn_append_cons slash [] rest
    exact (hall _ h [] (by rw [← List.nil_append (slash :: rest), hsplit]; simp)).counts.1 rfl
  · exact (hall _ h [dot,dot] (by decide)).ne_dotdot rfl
  · rw [← Bool.not_eq_true, List.isPrefixOf_iff_prefix]
    rintro ⟨rest,h⟩
    have hsplit := splitOn_append_cons slash [dot,dot] rest
    exact (hall _ h.symm [dot,dot] (by
      rw [show [dot,dot,slash] ++ rest = [dot,dot] ++ slash :: rest from rfl, hsplit]
      exact List.mem_append_left _ (by decide))).ne_dotdot rfl

/-- Which host paths are accepted, and what is made of them. -/
theorem validateHostPath_eq_ok_iff (raw baseDir path : GoString) :
    validateHostPath raw baseDir = .ok path ↔
      isAbs slash (baseOrDefault baseDir) = true ∧ looksAbsolute raw = false ∧ containsParentSegment raw = false ∧
        subSegments raw ≠ [] ∧ isAbs backslash ([slash].intercalate (subSegments raw)) = false ∧
        path = render slash dot true (cleanSegments slash dot true (baseOrDefault baseDir) ++ subSegments raw) := by
  by_cases hraw : raw = []
  · subst hraw
    simp [validateHostPath, subSegments, Counts]
  rw [validateHostPath, if_neg hraw]
  change (if !isAbs slash (clean slash dot (baseOrDefault baseDir)) then _ else
    if looksAbsolute raw then _ else if containsParentSegment raw then _ else _) = _ ↔ _
  rw [isAbs_clean dot_ne_slash]
  cases hbase : isAbs slash (baseOrDefault baseDir) with
  | false => simp
  | true =>
    cases hlook : looksAbsolute raw with
    | true => simp
    | false =>
      cases hparent : containsParentSegment raw with
      | true => simp
      | false =>
        have hmem := not_mem_splitOn_of_containsParentSegment hparent
        have habs : isAbs slash raw = false := by
          simp only [looksAbsolute, Bool.or_eq_false_iff] at hlook
          exact hlook.1.1.1
        have hclean : clean slash dot raw = render slash dot false (subSegments raw) := clean_of_relative habs hmem
        have hplain : ∀ s ∈ subSegments raw, Plain slash dot s := plain_of_mem_filter hmem
        by_cases hne : subSegments raw = []
        · simp [hclean, hne, render]
        · obtain ⟨hdot,hempty,hrel,hdots,hup⟩ := intercalate_cases hplain hne
          have hparent' := containsParentSegment_intercalate hplain hne
            (fun s hs => (List.mem_filter.mp hs).1) hparent
          have hsub : clean slash dot raw = [slash].intercalate (subSegments raw) := by
            rw [hclean, render, if_neg Bool.false_ne_true, if_neg hne]
          have hbaseClean : clean slash dot (baseOrDefault baseDir) =
              render slash dot true (cleanSegments slash dot true (baseOrDefault baseDir)) := by rw [clean, hbase]
          have hbs : ∀ s ∈ cleanSegments slash dot true (baseOrDefault baseDir), Plain slash dot s :=
            cleanSegments_plain _
          simp only [hsub, hbaseClean, join_render hbs hplain hne,
            clean_render (List.forall_mem_append.mpr ⟨hbs,hplain⟩), rel_render hbs hplain hne, hdot, hempty, hdots, hup,
            hrel, hparent', isPrefixOf_singleton, Bool.not_true, Bool.false_or, Bool.false_eq_true, or_false, if_false,
            ne_eq, hne, not_false_eq_true, true_and]
          cases isAbs backslash ([slash].intercalate (subSegments raw)) <;> simp [eq_comm]

/-! ## Confinement -/

theorem subSegments_ne_nil {raw : GoString} (h : ∃ s ∈ raw.splitOn slash, s ≠ [] ∧ s ≠ [dot]) : subSegments raw ≠ [] := by
  obtain ⟨s,hs,hcounts⟩ := h
  exact List.ne_nil_of_mem (List.mem_filter.mpr ⟨hs,decide_eq_true hcounts⟩)

theorem isAbs_intercalate_subSegments {raw : GoString} {b : UInt8} (hraw : b ∉ raw) :
    isAbs b ([slash].intercalate (subSegments raw)) = false := by
  cases hsegments : subSegments raw with
  | nil => rfl
  | cons s rest =>
    obtain ⟨hs,hcounts⟩ := List.mem_filter.mp (show s ∈ subSegments raw from hsegments ▸ List.mem_cons_self)
    exact isAbs_intercalate (of_decide_eq_true hcounts).1 (fun hb => hraw (mem_of_mem_splitOn hs hb).1) rest

/-- A host path that is accepted names something below the base directory, and every relative path of
names is accepted. -/
theorem validateHostPath_confined (raw baseDir : GoString) :
    (∀ path, validateHostPath raw baseDir = .ok path →
      isAbs slash (baseOrDefault baseDir) = true ∧
        ∃ segments : List GoString, segments ≠ [] ∧
          (∀ s ∈ segments, s ≠ [] ∧ s ≠ ascii "." ∧ s ≠ ascii ".." ∧ slash ∉ s) ∧
          path = (if clean slash dot (baseOrDefault baseDir) = ascii "/" then ascii "/"
            else clean slash dot (baseOrDefault baseDir) ++ ascii "/") ++ [slash].intercalate segments) ∧
    (backslash ∉ raw → raw.head? ≠ some slash → winDriveLetter raw = false → ascii ".." ∉ raw.splitOn slash →
      (∃ s ∈ raw.splitOn slash, s ≠ [] ∧ s ≠ ascii ".") → isAbs slash (baseOrDefault baseDir) = true →
        ∃ path, validateHostPath raw baseDir = .ok path) := by
  constructor
  · intro path h
    obtain ⟨hbase,_,hparent,hne,_,rfl⟩ := (validateHostPath_eq_ok_iff raw baseDir path).mp h
    have hplain : ∀ s ∈ subSegments raw, Plain slash dot s :=
      plain_of_mem_filter (not_mem_splitOn_of_containsParentSegment hparent)
    have hclean : clean slash dot (baseOrDefault baseDir) =
        render slash dot true (cleanSegments slash dot true (baseOrDefault baseDir)) := by rw [clean, hbase]
    refine ⟨hbase,subSegments raw,hne,fun s hs => ?_,?_⟩
    · exact ⟨(hplain s hs).counts.1,(hplain s hs).counts.2,(hplain s hs).ne_dotdot,(hplain s hs).not_mem⟩
    · rw [hclean]
      exact render_append hne (cleanSegments_plain _)
  · intro hback hslash hdrive hdots hsome hbase
    refine ⟨_,(validateHostPath_eq_ok_iff raw baseDir _).mpr ⟨hbase,?_,?_,?_,?_,rfl⟩⟩
    · have hback' : raw.head? ≠ some backslash := fun h => hback (List.mem_of_mem_head? h)
      simp [looksAbsolute, isPrefixOf_singleton, hdrive, hback', isAbs, hslash]
    · exact containsParentSegment_of_not_mem hback hdots
    · exact subSegments_ne_nil hsome
    · exact isAbs_intercalate_subSegments hback

/-- A name that merely starts with two dots, below the root and below a base that is not clean. -/
theorem dotdotName_accepted :
    (∃ path, validateHostPath (ascii "./..foo//a") (ascii "/") = .ok path) ∧
      ∃ path, validateHostPath (ascii "./..foo//a") (ascii "/var/../log/") = .ok path :=
  ⟨(validateHostPath_confined _ _).2 (by decide) (by decide) (by decide) (by decide) ⟨ascii "..foo",by decide⟩ (by decide),
    (validateHostPath_confined _ _).2 (by decide) (by decide) (by decide) (by decide) ⟨ascii "..foo",by decide⟩
      (by decide)⟩

end Retina.Capture
