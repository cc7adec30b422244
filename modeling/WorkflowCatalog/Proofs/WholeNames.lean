import WorkflowCatalog.Proofs.Declarations
import WorkflowCatalog.Proofs.Matching
import WorkflowCatalog.Proofs.Patterns

/-!
# Filters for whole names

A pattern between slashes stands in a group between the marks for the start and the end of a name. If the text between
the slashes is an expression by itself, then the pattern accepts the names that the expression describes as a whole. A
text that is not one is refused, unless it closes the group: what is before the parenthesis that does so is then an
expression, and the rest is read outside of the group, where the marks need not hold.
-/
namespace WorkflowCatalog

namespace Regex

variable {R : List Char} {r whole : Regex} {names : List String}

/-- The text is an expression, to its end. -/
def Reads (pattern : List Char) (r : Regex) : Prop :=
  ∃ names, parts? (pattern.length + 1) .initial [] .empty pattern = some (r, names, [])

theorem ofPattern?_eq_some_iff {pattern : List Char} :
    ofPattern? pattern = some r ↔ Reads pattern r ∧ r.weight ≤ maxWeight := by
  unfold ofPattern? Reads
  cases parts? (pattern.length + 1) .initial [] .empty pattern with
  | none => simp
  | some read =>
    obtain ⟨s, names, rest⟩ := read
    cases rest with
    | nil =>
      simp only [Option.ite_none_right_eq_some, Option.some.injEq, Prod.mk.injEq, and_true, exists_and_left,
        exists_eq']
      constructor
      · rintro ⟨small, rfl⟩
        exact ⟨rfl, small⟩
      · rintro ⟨rfl, small⟩
        exact ⟨small, rfl⟩
    | cons c rest => simp

/-! ## The group around a text -/

theorem skip_initial (cs : List Char) : skip Flags.initial.spaced cs = cs := skip_false cs

theorem parts?_start (fuel : Nat) (names : List String) (g : Group) (rest : List Char) :
    parts? (fuel + 1) .initial names g ('^' :: rest) =
      parts? fuel .initial names (g.push (.place .textStart)) rest := by
  simp only [parts?, skip_initial]
  rfl

theorem parts?_end (fuel : Nat) (names : List String) (g : Group) (rest : List Char) :
    parts? (fuel + 1) .initial names g ('$' :: rest) = parts? fuel .initial names (g.push (.place .textEnd)) rest := by
  simp only [parts?, skip_initial]
  rfl

theorem parts?_group (fuel : Nat) (names : List String) (g : Group) (rest : List Char) :
    parts? (fuel + 1) .initial names g ('(' :: '?' :: ':' :: rest) =
      (parts? fuel .initial names .empty rest).bind fun read =>
        (Text.dropMark? [')'] read.2.2).bind fun rest => parts? fuel .initial read.2.1 (g.push read.1) rest := by
  have opening : opening? .initial names ('?' :: ':' :: rest) = some (.group .initial names, rest) := by
    simp only [opening?, skip_initial]
    rfl
  rw [parts?_opening (skip_initial _), opening, Option.bind_some, opened?]

/-- The group around the text is read to some parenthesis, and then what is left. -/
theorem parts?_anchored {fuel : Nat}
    (read : parts? (fuel + 2) .initial [] .empty (NamePattern.anchored R) = some (whole, names, [])) :
    ∃ r names' rest, parts? fuel .initial [] .empty (R ++ [')', '$']) = some (r, names', ')' :: rest) ∧
      parts? fuel .initial names' ((Group.empty.push (.place .textStart)).push r) rest = some (whole, names, []) := by
  have steps : NamePattern.anchored R = '^' :: '(' :: '?' :: ':' :: (R ++ [')', '$']) := List.append_assoc ..
  rw [steps, parts?_start, parts?_group] at read
  simp only [Option.bind_eq_some_iff, Prod.exists] at read
  obtain ⟨r, names', left, inside, rest, closed, after⟩ := read
  obtain rfl := Text.dropMark?_single closed
  exact ⟨r, names', rest, inside, after⟩

/-- If the parenthesis behind the text closes the group, then the text is the expression between the marks. -/
theorem ofPattern?_of_closed {fuel : Nat} {names' : List String} (alone : Reads R r)
    (after : parts? (fuel + 2) .initial names ((Group.empty.push (.place .textStart)).push r) ['$'] =
      some (whole, names', [])) (small : whole.weight ≤ maxWeight) :
    ofPattern? R = some r ∧ whole = .both (.place .textStart) (.both r (.place .textEnd)) := by
  rw [parts?_end] at after
  simp only [parts?, skip_initial, Option.some.injEq, Prod.mk.injEq, and_true] at after
  obtain ⟨rfl, -⟩ := after
  refine ⟨ofPattern?_eq_some_iff.2 ⟨alone, Nat.le_trans ?_ small⟩, rfl⟩
  show r.weight ≤ 1 + (r.weight + 1)
  omega

/-- Either the text is read in the group, or a part of it that an extra parenthesis ends. -/
theorem ofPattern?_anchored (compiled : ofPattern? (NamePattern.anchored R) = some whole) :
    (∃ r, ofPattern? R = some r ∧ whole = .both (.place .textStart) (.both r (.place .textEnd))) ∨
      (ofPattern? R = none ∧ ∃ inside outside r, R = inside ++ ')' :: outside ∧ Reads inside r) := by
  obtain ⟨⟨names, read⟩, small⟩ := ofPattern?_eq_some_iff.1 compiled
  have long : (NamePattern.anchored R).length + 1 = R.length + 5 + 2 := by
    simp [NamePattern.anchored]
  rw [long] at read
  obtain ⟨r, names', rest, group, after⟩ := parts?_anchored read
  obtain ⟨inside, same⟩ : ∃ inside, inside ++ ')' :: rest = R ++ [')', '$'] :=
    (parts?_suffix group).trans (skip_suffix _ _)
  have alone : Reads inside r := ⟨names', parts?_cut (same ▸ group) (Nat.lt_succ_self _)⟩
  have closed (whole_text : inside = R) (end_mark : rest = ['$']) :
      ∃ r, ofPattern? R = some r ∧ whole = .both (.place .textStart) (.both r (.place .textEnd)) := by
    subst whole_text end_mark
    exact ⟨r, ofPattern?_of_closed alone after small⟩
  rcases List.append_eq_append_iff.1 same with ⟨more, text, ends⟩ | ⟨more, text, ends⟩
  · cases more with
    | nil =>
      rw [List.append_nil] at text
      exact .inl (closed text.symm (List.cons.inj ends).2)
    | cons c outside =>
      obtain ⟨rfl, rfl⟩ := List.cons.inj ends
      have stops : parts? (R.length + 1) .initial [] .empty R = some (r, names', ')' :: outside) :=
        parts?_cut group (Nat.lt_succ_self _)
      exact .inr ⟨by rw [ofPattern?, stops], inside, outside, r, text, alone⟩
  · cases more with
    | nil =>
      rw [List.append_nil] at text
      exact .inl (closed text (List.cons.inj ends).2.symm)
    | cons c more =>
      cases more with
      | nil => exact absurd (List.cons.inj (List.cons.inj ends).2).1 (by decide)
      | cons d more => simp at ends

end Regex

/-! ## Patterns of a filter -/

namespace NamePattern

variable {pattern : String} {R : List Char} {p : NamePattern}

/-- The pattern accepts the names that the expression describes from the start to the end. -/
def MatchesWhole (p : NamePattern) (r : Regex) : Prop :=
  ∀ name : String, p.accepts name = true ↔ r.Describes (name.toList.map Char.toNat)

theorem inner?_between (R : List Char) (some_text : R ≠ []) : inner? ('/' :: (R ++ ['/'])) = some R := by
  obtain ⟨before, c, rfl⟩ := List.eq_nil_or_concat R |>.resolve_left some_text
  simp [inner?]

/-- A text between slashes is an expression that the whole name must match, or it closes the group that it stands in. -/
theorem matchesWhole_of_ofText (written : pattern.toList = '/' :: (R ++ ['/'])) (some_text : R ≠ [])
    (read : ofText pattern = .ok p) :
    (∃ r, Regex.ofPattern? R = some r ∧ p.MatchesWhole r) ∨
      (Regex.ofPattern? R = none ∧ ∃ inside outside r, R = inside ++ ')' :: outside ∧ Regex.Reads inside r) := by
  unfold ofText at read
  rw [written, inner?_between R some_text] at read
  dsimp only at read
  split at read
  · rename_i whole compiled
    obtain rfl := Except.ok.inj read
    rcases Regex.ofPattern?_anchored compiled with ⟨r, valid, rfl⟩ | broken
    · exact .inl ⟨r, valid, fun name => Regex.search_between_iff r⟩
    · exact .inr broken
  · exact nomatch read

end NamePattern

namespace RefFilter

/-- All patterns of a filter. -/
def patterns (f : RefFilter) : List NamePattern := f.branches.getD [] ++ f.tags.getD []

theorem exists_mem_of_ofTexts {texts : List String} {ps : Option (List NamePattern)}
    (read : NamePattern.ofTexts texts = .ok ps) {pattern : String} (member : pattern ∈ texts) :
    ∃ p ∈ ps.getD [], NamePattern.ofText pattern = .ok p := by
  unfold NamePattern.ofTexts at read
  split at read
  · rename_i none_listed
    rw [List.isEmpty_iff.mp none_listed] at member
    exact absurd member List.not_mem_nil
  · cases found : texts.mapM NamePattern.ofText with
    | error e => rw [found] at read; exact nomatch read
    | ok qs =>
      rw [found] at read
      obtain rfl := Except.ok.inj read
      exact exists_of_forall₂ (mapM_eq_ok_iff.mp found) member

/-- Each pattern that is written is one of the filter. -/
theorem exists_mem_patterns {branches tags : List String} {f : RefFilter} (read : ofTexts branches tags = .ok f)
    {pattern : String} (member : pattern ∈ branches ++ tags) :
    ∃ p ∈ f.patterns, NamePattern.ofText pattern = .ok p := by
  obtain ⟨bs, readBranches, read⟩ := bind_eq_ok.mp read
  obtain ⟨ts, readTags, read⟩ := bind_eq_ok.mp read
  obtain rfl := Except.ok.inj read
  rcases List.mem_append.mp member with branch | tag
  · obtain ⟨p, here, same⟩ := exists_mem_of_ofTexts readBranches branch
    exact ⟨p, List.mem_append_left _ here, same⟩
  · obtain ⟨p, here, same⟩ := exists_mem_of_ofTexts readTags tag
    exact ⟨p, List.mem_append_right _ here, same⟩

end RefFilter

namespace Manifest

/-- All patterns that are written in a draft. -/
def Draft.patterns (d : Draft) : List String :=
  (d.workflows.flatMap fun w => w.branches ++ w.tags) ++ d.services.flatMap fun s => s.branches ++ s.tags

/-- The patterns of a draft are those of the filters that the manifest declares. -/
theorem Draft.Declares.exists_pattern {draft : Draft} {m : Manifest} (declares : draft.Declares m) {pattern : String}
    (member : pattern ∈ draft.patterns) :
    ∃ d ∈ m.entries, ∃ p ∈ d.filters.patterns, NamePattern.ofText pattern = .ok p := by
  obtain ⟨ws, ss, entries, workflows, services⟩ := declares
  rw [entries]
  rcases List.mem_append.mp member with ofWorkflow | ofService
  · obtain ⟨w, hw, written⟩ := List.mem_flatMap.mp ofWorkflow
    obtain ⟨d, hd, declares⟩ := exists_of_forall₂ workflows hw
    exact ⟨d, List.mem_append_left _ hd, RefFilter.exists_mem_patterns declares.filters written⟩
  · obtain ⟨s, hs, written⟩ := List.mem_flatMap.mp ofService
    obtain ⟨d, hd, declares⟩ := exists_of_forall₂ services hs
    exact ⟨d, List.mem_append_right _ hd, RefFilter.exists_mem_patterns declares.filters written⟩

theorem exists_draft_of_parse {content : String} {m : Manifest} (accepted : parse content = .ok m) :
    ∃ document draft, Yaml.Value.read? content = some document ∧ Draft.ofValue? document = some draft ∧
      draft.Declares m := by
  obtain ⟨document, draft, version, read, fits, made⟩ := drafted_of_parse accepted
  exact ⟨document, draft, read, fits, (declares_of_ofDraft made).2.2⟩

/-- Every pattern between slashes in a manifest that is accepted is one of a declared filter. If the text between the
slashes is an expression, then the pattern accepts a name if and only if the expression describes all of it. Otherwise
the text holds a parenthesis that closes the group around it, behind a part that is an expression. -/
theorem regex_pattern_whole_or_closed {content : String} {m : Manifest} (accepted : parse content = .ok m) :
    ∃ document draft, Yaml.Value.read? content = some document ∧ Draft.ofValue? document = some draft ∧
      draft.Declares m ∧ ∀ pattern ∈ draft.patterns, ∀ R : List Char, R ≠ [] → pattern.toList = '/' :: (R ++ ['/']) →
        ∃ d ∈ m.entries, ∃ p ∈ d.filters.patterns, NamePattern.ofText pattern = .ok p ∧
          ((∃ r, Regex.ofPattern? R = some r ∧ p.MatchesWhole r) ∨
            (Regex.ofPattern? R = none ∧
              ∃ inside outside r, R = inside ++ ')' :: outside ∧ Regex.Reads inside r)) := by
  obtain ⟨document, draft, read, fits, declares⟩ := exists_draft_of_parse accepted
  refine ⟨document, draft, read, fits, declares, fun pattern member R some_text written => ?_⟩
  obtain ⟨d, declared, p, here, compiled⟩ := declares.exists_pattern member
  exact ⟨d, declared, p, here, compiled, NamePattern.matchesWhole_of_ofText written some_text compiled⟩

end Manifest

namespace Sample

/-- A workflow whose branches are filtered by one pattern. -/
def filteredBy (pattern : String) : String :=
  "version: 1.2\nworkflows:\n- subclass: nfl\n  primaryDescriptorPath: /n\n  filters:\n    branches:\n    - " ++ pattern

/-- The patterns that are written in the manifest with that one, and whether a branch is let in. -/
def letsIn (pattern branch : String) : Option (List String × Bool) := do
  let document ← Yaml.Value.read? (filteredBy pattern)
  let draft ← Manifest.Draft.ofValue? document
  let m ← (Manifest.parse (filteredBy pattern)).toOption
  return (draft.patterns, m.entries.any fun d => d.filters.accepts .branch branch)

theorem exists_of_letsIn {pattern branch : String} {patterns : List String}
    (h : letsIn pattern branch = some (patterns, true)) :
    ∃ document draft m, Yaml.Value.read? (filteredBy pattern) = some document ∧
      Manifest.Draft.ofValue? document = some draft ∧ Manifest.parse (filteredBy pattern) = .ok m ∧
      draft.patterns = patterns ∧ ∃ d ∈ m.entries, d.filters.accepts .branch branch = true := by
  obtain ⟨document, read, h⟩ := Option.bind_eq_some_iff.mp h
  obtain ⟨draft, fits, h⟩ := Option.bind_eq_some_iff.mp h
  obtain ⟨m, parsed, h⟩ := Option.bind_eq_some_iff.mp h
  have accepted : Manifest.parse (filteredBy pattern) = .ok m := by
    cases found : Manifest.parse (filteredBy pattern) with
    | error e => rw [found] at parsed; exact nomatch parsed
    | ok m' => rw [found] at parsed; rw [Option.some.inj parsed]
  obtain ⟨written, accepts⟩ := Prod.mk.inj (Option.some.inj h)
  exact ⟨document, draft, m, read, fits, accepted, written, List.any_eq_true.mp accepts⟩

end Sample

namespace Manifest

/-- Both letters are described, so the pattern accepts what is one of them. -/
theorem sample_letters_whole : ∃ m, parse (Sample.filteredBy "/a|b/") = .ok m ∧
    ∃ d ∈ m.entries, ∃ p ∈ d.filters.patterns, NamePattern.ofText "/a|b/" = .ok p ∧
      ∃ r, Regex.ofPattern? "a|b".toList = some r ∧ p.MatchesWhole r := by
  obtain ⟨document, draft, m, read, fits, accepted, written, -⟩ :=
    Sample.exists_of_letsIn (show Sample.letsIn "/a|b/" "b" = some (["/a|b/"], true) by decide +kernel)
  obtain ⟨_, _, sameDocument, sameDraft, -, patterns⟩ := regex_pattern_whole_or_closed accepted
  obtain rfl := Option.some.inj (read.symm.trans sameDocument)
  obtain rfl := Option.some.inj (fits.symm.trans sameDraft)
  obtain ⟨d, declared, p, here, compiled, whole | ⟨broken, -⟩⟩ :=
    patterns "/a|b/" (written ▸ List.mem_singleton_self _) "a|b".toList (by decide) (by decide)
  · exact ⟨m, accepted, d, declared, p, here, compiled, whole⟩
  · exact absurd broken (by decide +kernel)

/-- A pattern that closes its group is accepted, though what is between the slashes is no expression. It lets in a
branch that only begins with the letter in front of the parenthesis. -/
theorem sample_group_closed : ∃ document draft m, Yaml.Value.read? (Sample.filteredBy "/a)|(?:b/") = some document ∧
    Draft.ofValue? document = some draft ∧ parse (Sample.filteredBy "/a)|(?:b/") = .ok m ∧
    draft.patterns = ["/a)|(?:b/"] ∧ Regex.ofPattern? "a)|(?:b".toList = none ∧
    ∃ d ∈ m.entries, d.filters.accepts .branch "ax" = true := by
  obtain ⟨document, draft, m, read, fits, accepted, written, lets⟩ :=
    Sample.exists_of_letsIn (show Sample.letsIn "/a)|(?:b/" "ax" = some (["/a)|(?:b/"], true) by decide +kernel)
  exact ⟨document, draft, m, read, fits, accepted, written, by decide +kernel, lets⟩

end Manifest

end WorkflowCatalog
