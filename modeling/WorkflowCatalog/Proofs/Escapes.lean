import Mathlib.Data.List.Basic
import WorkflowCatalog.Regex.Escape

/-!
# Where escapes end

What is left after a reader of a pattern is an end of the pattern. If a text with a closing parenthesis is still left,
then the reader has not looked into that text: it reads the same if the pattern stops before the parenthesis.
-/
namespace WorkflowCatalog

theorem Text.dropMark?_single {c : Char} {cs rest : List Char} (read : Text.dropMark? [c] cs = some rest) :
    cs = c :: rest := by
  cases cs with
  | nil => cases read
  | cons d cs =>
    simp only [Text.dropMark?, Option.ite_none_right_eq_some, Option.some.injEq] at read
    rw [read.1, read.2]

namespace Regex

variable {spaced : Bool} {flags : Flags} {c : Char} {e : Escape} {cs ds rest u : List Char}

/-! ## Blanks and comments -/

theorem skipComment_suffix (cs : List Char) : skipComment cs <:+ cs := by
  induction cs with
  | nil => exact List.suffix_refl _
  | cons c cs ih =>
    simp only [skipComment]
    split
    · exact List.suffix_cons c cs
    · exact ih.trans (List.suffix_cons c cs)

@[simp] theorem skip_false (cs : List Char) : skip false cs = cs := by
  simp [skip]

@[simp] theorem skip_nil (spaced : Bool) : skip spaced [] = [] := by
  cases spaced <;> simp [skip]

theorem skip_cons (spaced : Bool) (visible : Text.isBlank c = false) (other : c ≠ '#') (cs : List Char) :
    skip spaced (c :: cs) = c :: cs := by
  cases spaced with
  | false => rw [skip_false]
  | true => rw [skip, if_neg (by simp [visible]), if_neg other]

@[simp] theorem skip_closing (spaced : Bool) (cs : List Char) : skip spaced (')' :: cs) = ')' :: cs :=
  skip_cons spaced (by decide) (by decide) cs

theorem skip_suffix (spaced : Bool) (cs : List Char) : skip spaced cs <:+ cs := by
  fun_induction skip spaced cs with
  | case1 c rest blank ih => exact ih.trans (List.suffix_cons c rest)
  | case2 rest _ ih => exact (ih.trans (skipComment_suffix rest)).trans (List.suffix_cons _ rest)
  | case3 => exact List.suffix_refl _
  | case4 => exact List.suffix_refl _

theorem skipComment_append (cs : List Char) (kept : ')' :: u <:+ skipComment (cs ++ ')' :: u)) :
    skipComment (cs ++ ')' :: u) = skipComment cs ++ ')' :: u := by
  induction cs with
  | nil =>
    have within : skipComment (')' :: u) <:+ u := by simpa [skipComment] using skipComment_suffix u
    exact absurd (kept.trans within).length_le (by simp)
  | cons c cs ih =>
    simp only [List.cons_append, skipComment] at kept ⊢
    split
    · rfl
    · rw [if_neg ‹_›] at kept
      exact ih kept

/-- A comment that does not reach the parenthesis ends before it, and blanks anyway. -/
theorem skip_append (kept : ')' :: u <:+ skip spaced (cs ++ ')' :: u)) :
    skip spaced (cs ++ ')' :: u) = skip spaced cs ++ ')' :: u := by
  fun_induction skip spaced cs with
  | case1 c rest blank ih =>
    rw [List.cons_append, skip, if_pos blank] at kept ⊢
    exact ih kept
  | case2 rest notBlank ih =>
    have hash : skip true ('#' :: rest ++ ')' :: u) = skip true (skipComment (rest ++ ')' :: u)) := by
      rw [List.cons_append, skip, if_neg notBlank, if_pos rfl]
    rw [hash] at kept ⊢
    have ended := skipComment_append rest (kept.trans (skip_suffix _ _))
    rw [ended] at kept ⊢
    exact ih kept
  | case3 c rest notBlank notHash => rw [List.cons_append, skip, if_neg notBlank, if_neg notHash]
  | case4 spaced cs other =>
    cases cs with
    | nil =>
      rw [List.nil_append, skip_closing]
    | cons c cs =>
      cases spaced with
      | false => rw [skip_false]
      | true => exact absurd rfl (other c cs rfl)

theorem skip_append_of_left (within : rest ++ ')' :: u <:+ skip spaced (cs ++ ')' :: u)) :
    skip spaced (cs ++ ')' :: u) = skip spaced cs ++ ')' :: u :=
  skip_append ((List.suffix_append _ _).trans within)

theorem skipComment_append_of_ne_nil (more : skipComment cs ≠ []) (rest : List Char) :
    skipComment (cs ++ rest) = skipComment cs ++ rest := by
  induction cs with
  | nil => exact absurd rfl more
  | cons c cs ih =>
    simp only [List.cons_append, skipComment] at more ⊢
    split
    · rfl
    · rw [if_neg ‹_›] at more
      exact ih more

/-- What comes after the next symbol does not matter. -/
theorem skip_append_of_ne_nil (more : skip spaced cs ≠ []) (rest : List Char) :
    skip spaced (cs ++ rest) = skip spaced cs ++ rest := by
  fun_induction skip spaced cs with
  | case1 c cs blank ih => rw [List.cons_append, skip, if_pos blank, ih more]
  | case2 cs notBlank ih =>
    have moreThan : skipComment cs ≠ [] := fun none => more (by rw [none, skip_nil])
    rw [List.cons_append, skip, if_neg notBlank, if_pos rfl, skipComment_append_of_ne_nil moreThan, ih more]
  | case3 c cs notBlank notHash => rw [List.cons_append, skip, if_neg notBlank, if_neg notHash]
  | case4 spaced cs other =>
    cases spaced with
    | false => rw [skip_false]
    | true =>
      cases cs with
      | nil => exact absurd rfl more
      | cons c cs => exact absurd rfl (other c cs rfl)

/-! ## Runs -/

/-- The characters up to the first that is not of the kind, with blanks between them left out. -/
def run (kind : Char → Bool) (spaced : Bool) : Nat → List Char → List Char × List Char
  | fuel + 1, c :: cs =>
    if kind c then (c :: (run kind spaced fuel (skip spaced cs)).1, (run kind spaced fuel (skip spaced cs)).2)
    else ([], c :: cs)
  | _, cs => ([], cs)

theorem edgeName_eq_run (spaced : Bool) (fuel : Nat) (cs : List Char) :
    edgeName spaced fuel cs = run isEdgeNameChar spaced fuel cs := by
  induction fuel generalizing cs with
  | zero => rfl
  | succ fuel ih =>
    cases cs with
    | nil => rfl
    | cons c cs => simp only [edgeName, run, ih]

theorem run_suffix (kind : Char → Bool) (spaced : Bool) (fuel : Nat) (cs : List Char) :
    (run kind spaced fuel cs).2 <:+ cs := by
  fun_induction run kind spaced fuel cs with
  | case1 fuel c cs _ ih => exact (ih.trans (skip_suffix _ _)).trans (List.suffix_cons _ _)
  | case2 => exact List.suffix_refl _
  | case3 => exact List.suffix_refl _

theorem run_cut {kind : Char → Bool} {fuel fuel' : Nat} (closing : kind ')' = false)
    (kept : ')' :: u <:+ (run kind spaced fuel (cs ++ ')' :: u)).2) (long : (cs ++ ')' :: u).length ≤ fuel)
    (enough : cs.length ≤ fuel') : run kind spaced fuel (cs ++ ')' :: u) =
      ((run kind spaced fuel' cs).1, (run kind spaced fuel' cs).2 ++ ')' :: u) := by
  induction fuel generalizing cs fuel' with
  | zero => simp at long
  | succ fuel ih =>
    cases cs with
    | nil =>
      have none : run kind spaced fuel' [] = ([], []) := by cases fuel' <;> rfl
      simp [run, closing, none]
    | cons c cs =>
      obtain ⟨fuel', rfl⟩ := Nat.exists_eq_add_one_of_ne_zero (Nat.ne_zero_of_lt enough)
      have shorter := (skip_suffix spaced cs).length_le
      simp only [List.cons_append, List.length_cons, List.length_append, run] at kept long enough ⊢
      split at kept
      · have start := skip_append (kept.trans (run_suffix _ _ _ _))
        rw [start] at kept
        rw [start, if_pos ‹_›, if_pos ‹_›]
        rw [ih kept (by simp only [List.length_append, List.length_cons]; omega) (by omega : _ ≤ fuel')]
      · rw [if_neg ‹_›, if_neg ‹_›, List.cons_append]

/-! ## Numbers -/

theorem hexDigits?_suffix {n : Nat} (read : hexDigits? spaced n cs = some (ds, rest)) : rest <:+ cs := by
  induction n generalizing cs ds with
  | zero =>
    simp only [hexDigits?, Option.some.injEq, Prod.mk.injEq] at read
    exact read.2 ▸ List.suffix_refl _
  | succ n ih =>
    cases cs with
    | nil => simp [hexDigits?] at read
    | cons c cs =>
      simp only [hexDigits?, Option.bind_eq_bind, Option.bind_eq_some_iff, Option.pure_def, Prod.exists,
        Option.some.injEq, Prod.mk.injEq] at read
      obtain ⟨-, -, ds, rest, more, -, rfl⟩ := read
      exact ((ih more).trans (skip_suffix _ _)).trans (List.suffix_cons c cs)

theorem hexDigits?_cut {n : Nat} (read : hexDigits? spaced n (cs ++ ')' :: u) = some (ds, rest ++ ')' :: u)) :
    hexDigits? spaced n cs = some (ds, rest) := by
  induction n generalizing cs ds with
  | zero => simpa [hexDigits?] using read
  | succ n ih =>
    cases cs with
    | nil => simp [hexDigits?, show Text.hexValue? ')' = none by decide] at read
    | cons c cs =>
      simp only [List.cons_append, hexDigits?, Option.bind_eq_bind, Option.bind_eq_some_iff, Option.pure_def,
        Prod.exists, Option.some.injEq, Prod.mk.injEq] at read ⊢
      obtain ⟨n, digit, ds, rest', more, rfl, rfl⟩ := read
      rw [skip_append_of_left (hexDigits?_suffix more)] at more
      exact ⟨n, digit, ds, rest, ih more, rfl, rfl⟩

/-- The parenthesis is not among what follows it. -/
theorem not_suffix_after (rest u : List Char) : ¬ rest ++ ')' :: u <:+ u := fun kept => by
  have := kept.length_le
  simp only [List.length_append, List.length_cons] at this
  omega

theorem eq_cons_of_append {m : List Char} (same : cs ++ ')' :: u = c :: m) (other : c ≠ ')') :
    ∃ ds, cs = c :: ds ∧ m = ds ++ ')' :: u := by
  cases cs with
  | nil => exact absurd (List.cons.inj same).1.symm other
  | cons d ds =>
    obtain ⟨rfl, rfl⟩ := List.cons.inj same
    exact ⟨ds, rfl, rfl⟩

theorem braced?_suffix {fuel : Nat} (read : braced? spaced fuel cs = some (ds, rest)) :
    rest <:+ (skip spaced cs).tail := by
  induction fuel generalizing cs ds with
  | zero => simp [braced?] at read
  | succ fuel ih =>
    simp only [braced?] at read
    split at read
    · cases read
    · rename_i start
      cases read
      exact start ▸ List.suffix_refl _
    · rename_i start
      simp only [Option.map_eq_some_iff, Prod.exists, Prod.mk.injEq] at read
      obtain ⟨ds, rest, more, -, rfl⟩ := read
      rw [start]
      exact ((ih more).trans (List.tail_suffix _)).trans (skip_suffix _ _)

theorem braced?_cut {fuel fuel' : Nat} (read : braced? spaced fuel (cs ++ ')' :: u) = some (ds, rest ++ ')' :: u))
    (enough : cs.length < fuel') : braced? spaced fuel' cs = some (ds, rest) := by
  induction fuel generalizing cs ds fuel' with
  | zero => simp [braced?] at read
  | succ fuel ih =>
    obtain ⟨fuel', rfl⟩ := Nat.exists_eq_add_one_of_ne_zero (Nat.ne_zero_of_lt enough)
    have within := braced?_suffix read
    have shorter := (skip_suffix spaced cs).length_le
    have kept := skip_append_of_left (within.trans (List.tail_suffix _))
    simp only [braced?, kept] at read within ⊢
    cases start : skip spaced cs with
    | nil =>
      rw [start] at within
      exact absurd within (not_suffix_after _ _)
    | cons c cs =>
      simp only [start, List.cons_append, List.length_cons] at read shorter ⊢
      by_cases closing : c = '}'
      · subst closing
        simpa using read
      · simp only [Option.map_eq_some_iff, Prod.exists, Prod.mk.injEq] at read ⊢
        obtain ⟨ds, rest', more, rfl, rfl⟩ := read
        exact ⟨ds, rest, ih more (by omega), rfl, rfl⟩

theorem numbered?_suffix {digits : Nat} (read : numbered? spaced digits cs = some (e, rest)) :
    rest <:+ skip spaced cs := by
  simp only [numbered?] at read
  split at read
  · rename_i start
    simp only [Option.bind_eq_bind, Option.bind_eq_some_iff, Option.pure_def, Prod.exists, Option.some.injEq,
      Prod.mk.injEq] at read
    obtain ⟨ds, rest, inside, c, -, -, rfl⟩ := read
    rw [start]
    exact ((((skip_suffix _ _).trans (braced?_suffix inside)).trans (List.tail_suffix _)).trans
      (skip_suffix _ _)).trans (List.suffix_cons _ _)
  · simp only [Option.bind_eq_bind, Option.bind_eq_some_iff, Option.pure_def, Prod.exists, Option.some.injEq,
      Prod.mk.injEq] at read
    obtain ⟨ds, rest, run, c, -, -, rfl⟩ := read
    exact hexDigits?_suffix run

theorem numbered?_cut {digits : Nat} (read : numbered? spaced digits (cs ++ ')' :: u) = some (e, rest ++ ')' :: u)) :
    numbered? spaced digits cs = some (e, rest) := by
  have kept := skip_append_of_left (numbered?_suffix read)
  simp only [numbered?, kept] at read ⊢
  split at read
  · rename_i brace
    obtain ⟨m, start, rfl⟩ := eq_cons_of_append brace (by decide)
    simp only [start, Option.bind_eq_bind, Option.bind_eq_some_iff, Option.pure_def, Prod.exists, Option.some.injEq,
      Prod.mk.injEq] at read ⊢
    obtain ⟨ds, r, inside, c, number, rfl, left⟩ := read
    have keptR : ')' :: u <:+ skip spaced r := left ▸ List.suffix_append _ _
    obtain ⟨r, rfl⟩ := keptR.trans (skip_suffix _ _)
    rw [skip_append keptR, List.append_cancel_right_eq] at left
    exact ⟨ds, r, braced?_cut inside (by omega), c, number, rfl, left⟩
  · rename_i other
    split
    · rename_i start
      exact (other _ (by rw [start, List.cons_append])).elim
    · simp only [Option.bind_eq_bind, Option.bind_eq_some_iff, Option.pure_def, Prod.exists, Option.some.injEq,
        Prod.mk.injEq] at read ⊢
      obtain ⟨ds, r, run, c, number, rfl, rfl⟩ := read
      exact ⟨ds, rest, hexDigits?_cut run, c, number, rfl, rfl⟩

/-! ## Properties and boundaries -/

/-- The name of a property, in braces or of one character. -/
def propertyName? (spaced : Bool) (cs : List Char) : Option (List Char × List Char) :=
  match skip spaced cs with
  | [] => none
  | '{' :: rest => braced? spaced (rest.length + 1) rest
  | c :: rest => if c = '\\' then none else some ([c], skip spaced rest)

theorem propertyClass?_eq (flags : Flags) (negated : Bool) (cs : List Char) : propertyClass? flags negated cs =
    if flags.unicode then (propertyName? flags.spaced cs).bind fun n =>
      (named? n.1).bind fun s => some (.symbols (negatedIf (negated != s.2) (foldedIf flags s.1)), n.2)
    else none := by
  simp only [propertyClass?, propertyName?]
  cases flags.unicode with
  | false => rfl
  | true =>
    simp only [Bool.not_true, Bool.false_eq_true, if_false, if_true]
    cases skip flags.spaced cs with
    | nil => rfl
    | cons c m =>
      by_cases brace : c = '{'
      · subst brace
        rfl
      · by_cases backslash : c = '\\'
        · simp [backslash]
        · simp [backslash]

theorem propertyName?_suffix (read : propertyName? spaced cs = some (ds, rest)) :
    rest <:+ (skip spaced cs).tail := by
  simp only [propertyName?] at read
  split at read
  · cases read
  · rename_i start
    rw [start]
    exact ((braced?_suffix read).trans (List.tail_suffix _)).trans (skip_suffix _ _)
  · rename_i start
    split at read
    · cases read
    · cases read
      rw [start]
      exact skip_suffix _ _

theorem propertyName?_cut (read : propertyName? spaced (cs ++ ')' :: u) = some (ds, rest ++ ')' :: u)) :
    propertyName? spaced cs = some (ds, rest) := by
  have within := propertyName?_suffix read
  have kept := skip_append_of_left (within.trans (List.tail_suffix _))
  simp only [propertyName?, kept] at read within ⊢
  cases start : skip spaced cs with
  | nil =>
    rw [start] at within
    exact absurd within (not_suffix_after _ _)
  | cons c m =>
    simp only [start, List.cons_append] at read ⊢
    by_cases brace : c = '{'
    · subst brace
      exact braced?_cut read (Nat.lt_succ_self _)
    · simp only [Option.ite_none_left_eq_some, Option.some.injEq, Prod.mk.injEq] at read ⊢
      obtain ⟨other, rfl, left⟩ := read
      rw [skip_append (left ▸ List.suffix_append _ _), List.append_cancel_right_eq] at left
      exact ⟨other, rfl, left⟩

theorem propertyClass?_suffix {negated : Bool} (read : propertyClass? flags negated cs = some (e, rest)) :
    rest <:+ cs := by
  simp only [propertyClass?_eq, Option.ite_none_right_eq_some, Option.bind_eq_some_iff, Prod.exists,
    Option.some.injEq, Prod.mk.injEq] at read
  obtain ⟨-, name, rest, named, s, not, -, -, rfl⟩ := read
  exact ((propertyName?_suffix named).trans (List.tail_suffix _)).trans (skip_suffix _ _)

theorem propertyClass?_cut {negated : Bool}
    (read : propertyClass? flags negated (cs ++ ')' :: u) = some (e, rest ++ ')' :: u)) :
    propertyClass? flags negated cs = some (e, rest) := by
  simp only [propertyClass?_eq, Option.ite_none_right_eq_some, Option.bind_eq_some_iff, Prod.exists,
    Option.some.injEq, Prod.mk.injEq] at read ⊢
  obtain ⟨unicode, name, _, named, s, not, known, same, rfl⟩ := read
  exact ⟨unicode, name, rest, propertyName?_cut named, s, not, known, same, rfl⟩

/-- The boundary with that name. -/
def namedEdge? (unicode : Bool) (name : List Char) : Option Place :=
  match String.ofList name with
  | "start" => some (.wordStart unicode)
  | "end" => some (.wordEnd unicode)
  | "start-half" => some (.wordStartHalf unicode)
  | "end-half" => some (.wordEndHalf unicode)
  | _ => none

theorem edge?_of_ne_brace (flags : Flags) (other : ∀ m, cs ≠ '{' :: m) :
    edge? flags cs = some (.place (.wordEdge flags.unicode), cs) := by
  unfold edge?
  split
  · exact absurd rfl (other _)
  · rfl

theorem edge?_of_blank (blank : skip flags.spaced cs = []) : edge? flags ('{' :: cs) = none := by
  simp only [edge?, blank]

theorem edge?_of_not_letter {m : List Char} (start : skip flags.spaced cs = c :: m)
    (other : isEdgeNameChar c = false) :
    edge? flags ('{' :: cs) = some (.place (.wordEdge flags.unicode), '{' :: cs) := by
  simp only [edge?, start, other, Bool.not_false, if_true]

theorem edge?_of_letter {m : List Char} (start : skip flags.spaced cs = c :: m) (letter : isEdgeNameChar c = true) :
    edge? flags ('{' :: cs) =
      (Text.dropMark? ['}'] (run isEdgeNameChar flags.spaced (m.length + 2) (c :: m)).2).bind fun rest =>
        (namedEdge? flags.unicode (run isEdgeNameChar flags.spaced (m.length + 2) (c :: m)).1).map fun p =>
          (.place p, rest) := by
  simp only [edge?, start, letter, Bool.not_true, Bool.false_eq_true, if_false, namedEdge?, edgeName_eq_run]
  generalize run isEdgeNameChar flags.spaced (m.length + 2) (c :: m) = n
  obtain ⟨name, left⟩ := n
  generalize String.ofList name = name
  cases left with
  | nil => rfl
  | cons d rest =>
    by_cases closed : d = '}'
    · subst closed
      simp only [Text.dropMark?, if_true, Option.bind_some]
      split <;> simp
    · simp [Text.dropMark?, closed, Ne.symm closed]

theorem edge?_suffix (read : edge? flags cs = some (e, rest)) : rest <:+ cs := by
  by_cases brace : ∃ m, cs = '{' :: m
  · obtain ⟨m, rfl⟩ := brace
    cases start : skip flags.spaced m with
    | nil => simp [edge?_of_blank start] at read
    | cons c more =>
      by_cases letter : isEdgeNameChar c = true
      · simp only [edge?_of_letter start letter, Option.bind_eq_some_iff, Option.map_eq_some_iff, Prod.mk.injEq] at read
        obtain ⟨r, closed, p, -, -, rfl⟩ := read
        have within := run_suffix isEdgeNameChar flags.spaced (more.length + 2) (c :: more)
        rw [Text.dropMark?_single closed, ← start] at within
        exact ((List.suffix_cons _ _).trans (within.trans (skip_suffix _ _))).trans (List.suffix_cons _ _)
      · rw [edge?_of_not_letter start (by simpa using letter)] at read
        cases read
        exact List.suffix_refl _
  · rw [edge?_of_ne_brace flags fun m same => brace ⟨m, same⟩] at read
    cases read
    exact List.suffix_refl _

/-- A boundary looks ahead behind a brace that is left alone, and there only. -/
theorem edge?_cut (read : edge? flags (cs ++ ')' :: u) = some (e, rest ++ ')' :: u)) :
    edge? flags cs = some (e, rest) ∨ ∃ p m, e = .place p ∧ rest = '{' :: m ∧ skip flags.spaced m = [] := by
  by_cases brace : ∃ m, cs = '{' :: m
  · obtain ⟨m, rfl⟩ := brace
    rw [List.cons_append] at read
    cases start : skip flags.spaced (m ++ ')' :: u) with
    | nil => simp [edge?_of_blank start] at read
    | cons c more =>
      by_cases letter : isEdgeNameChar c = true
      · have other : c ≠ ')' := by
          rintro rfl
          exact absurd letter (by decide)
        simp only [edge?_of_letter start letter, Option.bind_eq_some_iff, Option.map_eq_some_iff, Prod.mk.injEq] at read
        obtain ⟨_, closed, p, known, rfl, rfl⟩ := read
        have name := Text.dropMark?_single closed
        have within := run_suffix isEdgeNameChar flags.spaced (more.length + 2) (c :: more)
        have kept : ')' :: u <:+ (run isEdgeNameChar flags.spaced (more.length + 2) (c :: more)).2 := by
          rw [name]
          exact (List.suffix_append rest _).trans (List.suffix_cons _ _)
        rw [skip_append (kept.trans (start ▸ within))] at start
        obtain ⟨more, first, rfl⟩ := eq_cons_of_append start other
        have sameRun := run_cut (show isEdgeNameChar ')' = false by decide) kept (by simp)
          (show (c :: more).length ≤ more.length + 2 by simp)
        rw [← List.cons_append, sameRun] at name known
        rw [← List.cons_append, List.append_cancel_right_eq] at name
        left
        rw [edge?_of_letter first letter, name]
        simp only [Text.dropMark?, if_true, Option.bind_some, Option.map_eq_some_iff]
        exact ⟨p, known, rfl⟩
      · have other : isEdgeNameChar c = false := by simpa using letter
        rw [edge?_of_not_letter start other, Option.some.injEq, Prod.mk.injEq, ← List.cons_append,
          List.append_cancel_right_eq] at read
        obtain ⟨rfl, rfl⟩ := read
        by_cases blank : skip flags.spaced m = []
        · exact .inr ⟨_, m, rfl, rfl, blank⟩
        · obtain ⟨d, ds, first⟩ := List.exists_cons_of_ne_nil blank
          rw [skip_append_of_ne_nil blank, first] at start
          obtain ⟨rfl, -⟩ := List.cons.inj start
          exact .inl (edge?_of_not_letter first other)
  · have none (m : List Char) : cs ++ ')' :: u ≠ '{' :: m := fun same => by
      obtain ⟨more, rfl, -⟩ := eq_cons_of_append same (by decide)
      exact brace ⟨more, rfl⟩
    rw [edge?_of_ne_brace flags none, Option.some.injEq, Prod.mk.injEq, List.append_cancel_right_eq] at read
    obtain ⟨rfl, rfl⟩ := read
    exact .inl (edge?_of_ne_brace flags fun m same => brace ⟨m, same⟩)

/-! ## Escapes -/

theorem cut_of_eq {α : Type} {x y : α} (read : some (x, cs ++ ')' :: u) = some (y, rest ++ ')' :: u)) :
    some (x, cs) = some (y, rest) := by
  simpa only [Option.some.injEq, Prod.mk.injEq, List.append_cancel_right_eq] using read

theorem escape?_suffix (read : escape? flags cs = some (e, rest)) : rest <:+ cs.tail := by
  cases cs with
  | nil => cases read
  | cons c cs =>
    simp only [escape?] at read
    split at read
    · cases read
      exact List.suffix_refl _
    · split at read
      case h_1 | h_2 | h_3 => exact (numbered?_suffix read).trans (skip_suffix _ _)
      case h_4 | h_5 => exact propertyClass?_suffix read
      case h_14 => exact edge?_suffix read
      case h_18 =>
        split at read
        · cases read
          exact List.suffix_refl _
        · cases read
      all_goals
        cases read
        exact List.suffix_refl _

/-- An escape may look ahead only if it is a boundary. -/
theorem escape?_cut (read : escape? flags (cs ++ ')' :: u) = some (e, rest ++ ')' :: u)) :
    escape? flags cs = some (e, rest) ∨ ∃ p m, e = .place p ∧ rest = '{' :: m ∧ skip flags.spaced m = [] := by
  cases cs with
  | nil => exact absurd (escape?_suffix read) (not_suffix_after _ _)
  | cons c cs =>
    simp only [List.cons_append, escape?] at read ⊢
    split at read
    · exact .inl (cut_of_eq read)
    · split at read
      case h_1 | h_2 | h_3 => exact .inl (numbered?_cut read)
      case h_4 | h_5 => exact .inl (propertyClass?_cut read)
      case h_14 => exact edge?_cut read
      case h_18 =>
        split at read
        · rename_i escapable
          simp only [escapable, if_true]
          exact .inl (cut_of_eq read)
        · cases read
      all_goals exact .inl (cut_of_eq read)

end Regex

end WorkflowCatalog
