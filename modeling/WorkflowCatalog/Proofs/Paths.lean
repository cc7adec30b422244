import Mathlib.Data.List.Basic
import Mathlib.Data.List.TakeWhile
import Mathlib.Logic.Function.Iterate
import WorkflowCatalog.Path

/-!
# Laws of paths

Where a path leads from a directory depends only on where the directory leads, so the canonical form of a part may be
taken before or after the parts are joined. A chain of relative paths, each seen from where the one before it leads, ends
where the joined path does. Going up from the root leads to the root.
-/
namespace WorkflowCatalog.Path

/-- The directory, a slash, and the path. -/
def join (dir path : String) : String := dir ++ "/" ++ path

/-- The path starts with a slash, none of its segments is empty, `.` or `..`, and it does not end with a slash unless it
is the root. -/
structure IsCanonical (path : String) : Prop where
  absolute : isAbsolute path = true
  proper : path ≠ "/" → ∀ s ∈ Text.splitOn '/' path.toList.tail, IsProper s
  ending : path.toList.getLast? = some '/' → path = "/"

/-! ## Canonical forms -/

theorem toList_ofSegments_cons (s : Segment) (ss : List Segment) :
    (ofSegments (s :: ss)).toList = '/' :: (s ++ ss.flatMap ('/' :: ·)) := by
  simp [ofSegments]

theorem toList_ofSegments_concat (ss : List Segment) (s : Segment) :
    (ofSegments (ss ++ [s])).toList = ss.flatMap ('/' :: ·) ++ '/' :: s := by
  cases ss <;> simp [ofSegments]

theorem isCanonical_ofSegments {ss : List Segment} (h : ∀ s ∈ ss, IsProper s) : IsCanonical (ofSegments ss) := by
  constructor
  case absolute => cases ss <;> simp [isAbsolute, ofSegments]
  case proper =>
    cases ss with
    | nil => exact fun other => absurd rfl other
    | cons s ss =>
      have pieces := Text.splitOn_flatMap fun t ht => (h t ht).no_slash
      rw [List.flatMap_cons, List.cons_append, Text.splitOn, if_pos rfl] at pieces
      rw [toList_ofSegments_cons, List.tail_cons, (List.cons.inj pieces).2]
      exact fun _ => h
  case ending =>
    obtain rfl | ⟨before, last, rfl⟩ := List.eq_nil_or_concat' ss
    · exact fun _ => rfl
    · -- The last character is one of the last segment.
      have final : IsProper last := h last (by simp)
      rw [toList_ofSegments_concat, List.getLast?_append_of_ne_nil _ (List.cons_ne_nil _ _)]
      intro slash
      cases last with
      | nil => exact absurd rfl final.nonempty
      | cons c cs =>
        rw [List.getLast?_cons_cons] at slash
        exact absurd (List.mem_of_getLast? slash) final.no_slash

theorem isCanonical_normalize (path : String) : IsCanonical (normalize path) :=
  isCanonical_ofSegments isProper_of_mem_segments

theorem isCanonical_resolve (dir path : String) : IsCanonical (resolve dir path) := by
  rw [← normalize_resolve]
  exact isCanonical_normalize _

@[simp] theorem segments_normalize (path : String) : segments (normalize path) = segments path :=
  segments_ofSegments isProper_of_mem_segments

/-! ## Joined paths -/

theorem walk_append (place ss ts : List Segment) : walk place (ss ++ ts) = walk (walk place ss) ts := by
  induction ss generalizing place with
  | nil => rfl
  | cons s ss ih =>
    simp only [List.cons_append, walk]
    split
    · exact ih place
    · split
      · exact ih place.tail
      · exact ih (s :: place)

/-- The segments behind a slash are followed from where the directory leads. -/
theorem segments_join (dir path : String) :
    segments (join dir path) = (walk (segments dir).reverse (Text.splitOn '/' path.toList)).reverse := by
  have text : (join dir path).toList = dir.toList ++ '/' :: path.toList := by simp [join]
  rw [segments, text, Text.splitOn_append, walk_append, segments, List.reverse_reverse]

theorem segments_join_congr {dir other : String} (same : segments dir = segments other) (path : String) :
    segments (join dir path) = segments (join other path) := by
  rw [segments_join, segments_join, same]

theorem join_join (a b c : String) : join (join a b) c = join a (join b c) := by
  simp only [join, String.append_assoc]

theorem foldl_join (a b : String) (steps : List String) :
    steps.foldl join (join a b) = join a (steps.foldl join b) := by
  induction steps generalizing b with
  | nil => rfl
  | cons s steps ih => rw [List.foldl_cons, List.foldl_cons, join_join, ih]

/-! ## Going up -/

theorem segments_join_up (path : String) : segments (join path "..") = (segments path).dropLast := by
  rw [segments_join, show Text.splitOn '/' "..".toList = [['.', '.']] by decide]
  simp [walk]

theorem segments_climb (path : String) (n : Nat) :
    segments ((join · "..")^[n] path) = (segments path).take ((segments path).length - n) := by
  induction n with
  | zero => simp
  | succ n ih =>
    rw [Function.iterate_succ_apply', segments_join_up, ih, List.dropLast_eq_take, List.take_take, List.length_take]
    congr 1
    omega

/-- What stands before the last slash of a canonical path are the segments before the last one. -/
theorem before_last_slash {ss : List Segment} {s : Segment} (h : '/' ∉ s) :
    (((ofSegments (ss ++ [s])).toList.reverse.dropWhile (· ≠ '/')).tail).reverse = ss.flatMap ('/' :: ·) := by
  have name : ∀ c ∈ s.reverse, decide (c ≠ '/') = true := by
    intro c hc
    simpa using fun e : c = '/' => h (e ▸ List.mem_reverse.mp hc)
  rw [toList_ofSegments_concat, List.reverse_append, List.reverse_cons, List.append_assoc,
    List.dropWhile_append_of_pos name]
  simp

theorem parent_eq (path : String) : parent path = ofSegments (segments path).dropLast := by
  rw [parent, normalize]
  obtain root | ⟨ss, s, parts⟩ := List.eq_nil_or_concat' (segments path)
  · rw [root]
    decide
  · have member : s ∈ segments path := by simp [parts]
    rw [parts, before_last_slash (isProper_of_mem_segments s member).no_slash, List.dropLast_concat]
    cases ss <;> simp [ofSegments]

/-! ## Relative paths -/

/-- Slashes at the end make empty segments only. -/
theorem walk_slashes (place : List Segment) (cs : List Char) (n : Nat) :
    walk place (Text.splitOn '/' (cs ++ List.replicate n '/')) = walk place (Text.splitOn '/' cs) := by
  induction n with
  | zero => simp
  | succ n ih =>
    rw [List.replicate_succ', ← List.append_assoc, Text.splitOn_append, walk_append, ih]
    rfl

theorem segments_dropSlashes (path : String) : segments (dropSlashes path) = segments path := by
  have slashes : path.toList.reverse.takeWhile (· = '/') =
      List.replicate (path.toList.reverse.takeWhile (· = '/')).length '/' :=
    List.eq_replicate_of_mem fun c hc => by simpa using List.mem_takeWhile_imp hc
  have cut : (path.toList.reverse.dropWhile (· = '/')).reverse ++
      List.replicate (path.toList.reverse.takeWhile (· = '/')).length '/' = path.toList := by
    rw [← List.reverse_replicate, ← slashes, ← List.reverse_append, List.takeWhile_append_dropWhile, List.reverse_reverse]
  rw [segments, segments, dropSlashes, String.toList_ofList, ← walk_slashes, cut]

/-- A relative path leads to where it is written to lead, however many slashes end the directory. -/
theorem resolve_of_relative {path : String} (h : isAbsolute path = false) (dir : String) :
    resolve dir path = normalize (join dir path) := by
  rw [resolve, if_neg (by simp [h])]
  exact congrArg ofSegments (segments_join_congr (segments_dropSlashes dir) path)

/-- One step of a chain: the canonical form of the directory serves as well as any other. -/
theorem segments_foldl_resolve {dir text : String} (same : segments dir = segments text) {steps : List String}
    (relative : ∀ s ∈ steps, isAbsolute s = false) :
    segments (steps.foldl resolve dir) = segments (steps.foldl join text) := by
  induction steps generalizing dir text with
  | nil => exact same
  | cons s steps ih =>
    rw [List.forall_mem_cons] at relative
    refine ih ?_ relative.2
    rw [resolve_of_relative relative.1, segments_normalize]
    exact segments_join_congr same s

theorem normalize_foldl_resolve {dir : String} (h : normalize dir = dir) (steps : List String) :
    normalize (steps.foldl resolve dir) = steps.foldl resolve dir := by
  induction steps generalizing dir with
  | nil => exact h
  | cons s steps ih => exact ih (normalize_resolve dir s)

theorem foldl_resolve (a : String) {b : String} {steps : List String}
    (relative : ∀ s ∈ b :: steps, isAbsolute s = false) :
    steps.foldl resolve (resolve a b) = normalize (steps.foldl join (join a b)) := by
  have ending : segments ((b :: steps).foldl resolve a) = segments ((b :: steps).foldl join a) :=
    segments_foldl_resolve rfl relative
  rw [← normalize_foldl_resolve (normalize_resolve a b)]
  exact congrArg ofSegments ending

/-- The canonical form is canonical, and taking it again changes nothing. It may be taken of the directory first when
paths are joined. The directory of a path is where `..` leads from it. A relative path leads to where the joined path
does, and so does a chain of relative paths, whether they are joined to the first directory or to one another. As many
times as one goes up, one is left with the segments that this has not taken away, or at the root. -/
theorem canonical_paths_compose (a b : String) :
    IsCanonical (normalize a) ∧ normalize (normalize a) = normalize a ∧
    normalize (join a b) = normalize (join (normalize a) b) ∧
    parent a = normalize (join a "..") ∧
    IsCanonical (resolve a b) ∧ (isAbsolute b = false → resolve a b = normalize (join a b)) ∧
    (∀ steps : List String, (∀ s ∈ b :: steps, isAbsolute s = false) →
      steps.foldl resolve (resolve a b) = normalize (steps.foldl join (join a b)) ∧
        (isAbsolute (steps.foldl join b) = false →
          steps.foldl resolve (resolve a b) = resolve a (steps.foldl join b))) ∧
    ∀ n, normalize ((join · "..")^[n] a) = ofSegments ((segments a).take ((segments a).length - n)) := by
  refine ⟨isCanonical_normalize a, normalize_normalize a, ?_, ?_, isCanonical_resolve a b,
    fun relative => resolve_of_relative relative a, fun steps relative => ⟨foldl_resolve a relative, fun whole => ?_⟩,
    fun n => congrArg ofSegments (segments_climb a n)⟩
  · exact congrArg ofSegments (segments_join_congr (segments_normalize a).symm b)
  · rw [parent_eq, normalize, segments_join_up]
  · rw [foldl_resolve a relative, resolve_of_relative whole, foldl_join]

/-- A chain that leaves the first directory and goes up once more at the root. -/
theorem sample_chain_composes :
    let steps := ["../../../lib", "b.wdl"]
    (∀ s ∈ "sub/.." :: steps, isAbsolute s = false) ∧ isAbsolute (steps.foldl join "sub/..") = false ∧
      resolve "/wf//" "sub/.." = normalize "/wf///sub/.." ∧ resolve "/wf//" "sub/.." = "/wf" ∧
      steps.foldl resolve (resolve "/wf//" "sub/..") = normalize "/wf///sub/../../../../lib/b.wdl" ∧
      steps.foldl resolve (resolve "/wf//" "sub/..") = resolve "/wf//" "sub/../../../../lib/b.wdl" ∧
      steps.foldl resolve (resolve "/wf//" "sub/..") = "/lib/b.wdl" := by
  intro steps
  obtain ⟨-, -, -, -, -, single, chain, -⟩ := canonical_paths_compose "/wf//" "sub/.."
  have relative : ∀ s ∈ "sub/.." :: steps, isAbsolute s = false := by decide
  have whole : isAbsolute (steps.foldl join "sub/..") = false := by decide
  obtain ⟨joined, together⟩ := chain steps relative
  exact ⟨relative, whole, single (by decide), by decide +kernel, joined, together whole, by decide +kernel⟩

end WorkflowCatalog.Path
