import WorkflowCatalog.Descriptor.Wdl
import WorkflowCatalog.Proofs.Statements

/-!
# Lines that import

Each line that begins with an import gives one path, and the paths are listed in the order of the lines. Whichever quote
opens a path, the next quote of either kind closes it. Where that is the one that opened it, the path is all that stands
between the two; a path that holds the other quote is cut there.
-/
namespace WorkflowCatalog.Wdl

open Statement (Begins isQuote)

variable {line : List Char} {path : String}

/-- The line begins with an import of this path, up to the next quote of either kind. -/
def Says (line : List Char) (path : String) : Prop :=
  ∃ rest, Statement.Names "import" line path rest

/-- The line begins with an import of this path, up to the next quote of the kind that opens it. -/
def Quotes (line : List Char) (path : String) : Prop :=
  ∃ quote body rest, Begins "import" line quote body quote rest ∧ body ≠ [] ∧ quote ∉ body ∧
    path = String.ofList (Text.trim body)

/-- If the line begins with an import, the first quote behind the one that opens its path is of the same kind. -/
def IsUnmixed (line : List Char) : Prop :=
  ∀ opening body closing rest, Begins "import" line opening body closing rest → (∀ c ∈ body, isQuote c = false) →
    closing = opening

/-- One path for each line that says one, in the order of the lines, and nothing for the others. -/
inductive Listing (gives : List Char → String → Prop) : List (List Char) → List String → Prop
  | nil : Listing gives [] []
  | path {line : List Char} {path : String} {lines : List (List Char)} {paths : List String} (said : gives line path)
      (others : Listing gives lines paths) : Listing gives (line :: lines) (path :: paths)
  | silent {line : List Char} {lines : List (List Char)} {paths : List String} (unsaid : ∀ path, ¬ gives line path)
      (others : Listing gives lines paths) : Listing gives (line :: lines) paths

theorem isWord_import : Statement.IsWord "import" := ⟨'i', "mport".toList, rfl, by decide⟩

theorem importOf?_eq (line : List Char) : importOf? line = (Statement.named? "import" line).map Prod.fst := by
  rw [Statement.named?, Option.map_map]
  exact Statement.behind?_map _

theorem importOf?_eq_some_iff : importOf? line = some path ↔ Says line path := by
  simp [importOf?_eq, Statement.named?_eq_some_iff isWord_import, Says]

/-- Between quotes of one kind stands one path at most. -/
theorem Quotes.unique {path' : String} (h : Quotes line path) (h' : Quotes line path') : path = path' := by
  obtain ⟨quote, body, rest, begins, -, plain, rfl⟩ := h
  obtain ⟨quote', body', rest', begins', -, plain', rfl⟩ := h'
  rw [begins.unique isWord_import plain begins' plain']

/-- Where quotes are not mixed, both readings of a line agree. -/
theorem IsUnmixed.says_iff (unmixed : IsUnmixed line) (path : String) : Says line path ↔ Quotes line path := by
  constructor
  · rintro ⟨rest, opening, body, closing, begins, some_body, plain, rfl⟩
    obtain rfl := unmixed opening body closing rest begins plain
    have closes : isQuote closing = true := ((Statement.begins_iff isWord_import).mp begins).2.1
    refine ⟨closing, body, rest, begins, some_body, fun inside => ?_, rfl⟩
    exact absurd (plain closing inside) (by simp [closes])
  · rintro ⟨quote, body, rest, begins, some_body, outside, rfl⟩
    refine ⟨rest, quote, body, quote, begins, some_body, ?_, rfl⟩
    by_contra mixed
    simp only [not_forall, Bool.not_eq_false, exists_prop] at mixed
    -- The first quote in the path would be of the kind around it, which the path does not hold.
    obtain ⟨first, found⟩ := Option.isSome_iff_exists.mp (List.find?_isSome.mpr mixed)
    obtain ⟨closes, before, after, rfl, plain⟩ := List.find?_eq_some_iff_append.mp found
    obtain ⟨indent, gap, blank, some_gap, blank_gap, opens, -, written⟩ := begins
    obtain rfl := unmixed quote before first (after ++ quote :: rest)
      ⟨indent, gap, blank, some_gap, blank_gap, opens, closes, by simpa using written⟩
      fun c hc => by simpa using plain c hc
    exact outside (by simp)

/-- Only what stands behind the keyword has to be looked at. -/
theorem isUnmixed_of_behind? {opening : Char} {rest : List Char}
    (read : Statement.behind? "import" line = some (opening :: rest)) (first : rest.find? isQuote = some opening) :
    IsUnmixed line := by
  intro opening' body closing rest' begins plain
  obtain ⟨-, closes, read'⟩ := (Statement.begins_iff isWord_import).mp begins
  obtain ⟨rfl, rfl⟩ := List.cons.inj (Option.some.inj (read.symm.trans read'))
  have next : (body ++ closing :: rest').find? isQuote = some closing :=
    List.find?_eq_some_iff_append.mpr ⟨closes, body, rest', rfl, fun c hc => by rw [plain c hc, Bool.not_false]⟩
  exact Option.some.inj (next.symm.trans first)

theorem listing_filterMap {gives : List Char → String → Prop} {f : List Char → Option String}
    (h : ∀ line path, f line = some path ↔ gives line path) (lines : List (List Char)) :
    Listing gives lines (lines.filterMap f) := by
  induction lines with
  | nil => exact .nil
  | cons line lines ih =>
    cases read : f line with
    | none =>
      rw [List.filterMap_cons_none read]
      refine .silent (fun path said => ?_) ih
      exact absurd ((h line path).mpr said) (by simp [read])
    | some path =>
      rw [List.filterMap_cons_some read]
      exact .path ((h line path).mp read) ih

/-- The imports of a text are the paths that its lines begin with, in their order and nothing else. A path ends at the
first quote, and where that is of the kind that opened it, all that stands between quotes of that kind is listed. -/
theorem imports_listed (content : String) : ∃ paths, imports content = paths.map (fun p => ⟨p, .wdl⟩) ∧
    Listing Says (Text.lines content.toList) paths ∧
    ∀ line ∈ Text.lines content.toList, IsUnmixed line → ∀ path, Says line path ↔ Quotes line path :=
  ⟨(Text.lines content.toList).filterMap importOf?, rfl,
    listing_filterMap (fun _ _ => importOf?_eq_some_iff) (Text.lines content.toList),
    fun _ _ unmixed => unmixed.says_iff⟩

/-- A path that holds an apostrophe is cut there, though double quotes are around it. -/
theorem sample_path_cut :
    Quotes "import \"it's.wdl\"".toList "it's.wdl" ∧ imports "import \"it's.wdl\"" = [⟨"it", .wdl⟩] ∧
      ¬ ∃ paths, imports "import \"it's.wdl\"" = paths.map (fun p => ⟨p, .wdl⟩) ∧
        Listing Quotes (Text.lines "import \"it's.wdl\"".toList) paths := by
  have one : Text.lines "import \"it's.wdl\"".toList = ["import \"it's.wdl\"".toList] := by decide +kernel
  have whole : Quotes "import \"it's.wdl\"".toList "it's.wdl" :=
    ⟨'"', "it's.wdl".toList, [], (Statement.begins_iff isWord_import).mpr ⟨by decide, by decide, by decide +kernel⟩,
      by decide, by decide, by decide +kernel⟩
  have cut : imports "import \"it's.wdl\"" = [⟨"it", .wdl⟩] := by decide +kernel
  refine ⟨whole, cut, ?_⟩
  rintro ⟨paths, listed, listing⟩
  rw [one] at listing
  cases listing with
  | silent unsaid => exact unsaid _ whole
  | path said others =>
    cases others
    rw [cut, ← whole.unique said] at listed
    exact absurd listed (by decide)

/-- Quotes of both kinds, one to each path, and a line that imports nothing. -/
theorem sample_paths_listed :
    let content := "version 1.0\n  import \"a.wdl\" as a\nimport ' b.wdl' \n"
    imports content = [⟨"a.wdl", .wdl⟩, ⟨"b.wdl", .wdl⟩] ∧
      ∃ line ∈ Text.lines content.toList, IsUnmixed line ∧ Says line "b.wdl" ∧ Quotes line "b.wdl" := by
  intro content
  obtain ⟨paths, listed, -, agree⟩ := imports_listed content
  have member : "import ' b.wdl' ".toList ∈ Text.lines content.toList := by decide +kernel
  have read : Statement.behind? "import" "import ' b.wdl' ".toList = some ('\'' :: " b.wdl' ".toList) := by
    decide +kernel
  have unmixed : IsUnmixed "import ' b.wdl' ".toList := isUnmixed_of_behind? read (by decide +kernel)
  have said : Says "import ' b.wdl' ".toList "b.wdl" := importOf?_eq_some_iff.mp (by decide +kernel)
  exact ⟨by decide +kernel, _, member, unmixed, said, (agree _ member unmixed _).mp said⟩

end WorkflowCatalog.Wdl
