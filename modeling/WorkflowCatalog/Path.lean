import WorkflowCatalog.Text.Split

/-!
# Paths inside a repository

A canonical path starts with a slash and lists the segments from the root. Empty segments and `.` are
dropped, and `..` takes back the segment before it, but never climbs above the root.
-/
namespace WorkflowCatalog.Path

abbrev Segment := List Char

/-- Follows the segments from a place in the tree, whose own segments are given innermost first. -/
def walk : List Segment → List Segment → List Segment
  | place, [] => place
  | place, s :: rest =>
    if s = [] ∨ s = ['.'] then walk place rest
    else if s = ['.', '.'] then walk place.tail rest
    else walk (s :: place) rest

/-- The segments from the root that a path leads to. -/
def segments (path : String) : List Segment := (walk [] (Text.splitOn '/' path.toList)).reverse

def ofSegments (ss : List Segment) : String :=
  match ss with
  | [] => "/"
  | _ => String.ofList (ss.flatMap ('/' :: ·))

/-- The canonical form. -/
def normalize (path : String) : String := ofSegments (segments path)

/-- The directory that holds the path: what stands before the last slash of its canonical form. The root
holds itself. -/
def parent (path : String) : String :=
  match ((normalize path).toList.reverse.dropWhile (· ≠ '/')).tail.reverse with
  | [] => "/"
  | dir => String.ofList dir

def isAbsolute (path : String) : Bool := path.toList.head? = some '/'

/-- The path without the slashes at its end. -/
def dropSlashes (path : String) : String := String.ofList (path.toList.reverse.dropWhile (· = '/')).reverse

/-- The canonical form of `path` as seen from the directory `dir`. -/
def resolve (dir path : String) : String :=
  if isAbsolute path then normalize path else normalize (dropSlashes dir ++ "/" ++ path)

/-- A segment that a canonical path can have. -/
structure IsProper (s : Segment) : Prop where
  nonempty : s ≠ []
  not_here : s ≠ ['.']
  not_up : s ≠ ['.', '.']
  no_slash : '/' ∉ s

theorem isProper_of_mem_walk {place ss : List Segment} (hplace : ∀ s ∈ place, IsProper s) (hss : ∀ s ∈ ss, '/' ∉ s) :
    ∀ s ∈ walk place ss, IsProper s := by
  induction ss generalizing place with
  | nil => exact hplace
  | cons t ss ih =>
    rw [List.forall_mem_cons] at hss
    simp only [walk]
    split
    · exact ih hplace hss.2
    · rename_i here
      rw [not_or] at here
      split
      · exact ih (fun s hs => hplace s (List.mem_of_mem_tail hs)) hss.2
      · rename_i up
        exact ih (List.forall_mem_cons.mpr ⟨⟨here.1, here.2, up, hss.1⟩, hplace⟩) hss.2

theorem walk_of_proper {place ss : List Segment} (h : ∀ s ∈ ss, IsProper s) : walk place ss = ss.reverse ++ place := by
  induction ss generalizing place with
  | nil => rfl
  | cons t ss ih =>
    rw [List.forall_mem_cons] at h
    rw [walk, if_neg (not_or.mpr ⟨h.1.nonempty, h.1.not_here⟩), if_neg h.1.not_up, ih h.2]
    simp

theorem isProper_of_mem_segments {path : String} : ∀ s ∈ segments path, IsProper s := by
  intro s hs
  refine isProper_of_mem_walk (fun s hs => absurd hs List.not_mem_nil) (fun s hs => ?_) s (List.mem_reverse.mp hs)
  exact Text.not_mem_of_mem_splitOn hs

theorem segments_ofSegments {ss : List Segment} (h : ∀ s ∈ ss, IsProper s) : segments (ofSegments ss) = ss := by
  cases ss with
  | nil => decide
  | cons t ss =>
    simp only [segments, ofSegments, String.toList_ofList]
    rw [Text.splitOn_flatMap fun s hs => (h s hs).no_slash, walk, if_pos (.inl rfl), walk_of_proper h]
    simp

/-- The canonical form of a canonical path is the path itself. -/
@[simp] theorem normalize_normalize (path : String) : normalize (normalize path) = normalize path := by
  rw [normalize, normalize, segments_ofSegments isProper_of_mem_segments]

theorem isAbsolute_normalize (path : String) : isAbsolute (normalize path) = true := by
  unfold normalize ofSegments
  split
  · decide
  · rename_i ss _
    cases h : segments path with
    | nil => contradiction
    | cons s ss => simp [isAbsolute]

/-- A canonical path leads to the same place from everywhere. -/
theorem resolve_of_normalize_eq {path : String} (h : normalize path = path) (dir : String) :
    resolve dir path = path := by
  rw [resolve, if_pos (h ▸ isAbsolute_normalize path), h]

@[simp] theorem normalize_resolve (dir path : String) : normalize (resolve dir path) = resolve dir path := by
  unfold resolve
  split <;> exact normalize_normalize _

/-- Whether the text addresses a web resource. -/
def isUrl (text : String) : Bool :=
  let lower := text.toList.map Char.toLower
  Text.startsWith "http://".toList lower || Text.startsWith "https://".toList lower

def dropFileScheme (text : String) : String :=
  ((Text.dropMark? "file://".toList text.toList).map String.ofList).getD text

end WorkflowCatalog.Path
