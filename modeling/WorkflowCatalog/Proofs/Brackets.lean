import WorkflowCatalog.Proofs.Escapes
import WorkflowCatalog.Regex.Bracket

/-!
# Where sets end

A set in brackets that leaves a text with a closing parenthesis has not looked into it. Its parts may have done so:
a range looks for a hyphen and what follows it. But a set that stopped there would not be closed.
-/
namespace WorkflowCatalog

theorem Text.cutAt_eq_some_iff {sep : Char} {cs name rest : List Char} :
    cutAt sep cs = (name, some rest) ↔ sep ∉ name ∧ cs = name ++ sep :: rest := by
  induction cs generalizing name with
  | nil => simp [cutAt]
  | cons c cs ih =>
    simp only [cutAt]
    cases name with
    | nil => by_cases here : c = sep <;> simp [here]
    | cons d name =>
      have later := @ih name
      simp only [Prod.ext_iff] at later ⊢
      grind

namespace Regex

variable {flags : Flags} {e : Escape} {s : Symbols} {cs rest u : List Char}

/-- Whether a caret is in front, and what follows it. -/
def afterCaret (cs : List Char) : Bool × List Char :=
  match cs with
  | '^' :: rest => (true, rest)
  | _ => (false, cs)

theorem afterCaret_of_ne (other : ∀ m, cs ≠ '^' :: m) : afterCaret cs = (false, cs) := by
  unfold afterCaret
  split
  · exact absurd rfl (other _)
  · rfl

theorem namedClass?_eq (flags : Flags) (cs : List Char) : namedClass? flags cs =
    (Text.dropMark? [':'] cs).bind fun cs => (Text.cutAt ':' (afterCaret cs).2).2.bind fun rest =>
      (Text.dropMark? [']'] rest).bind fun rest =>
        (asciiClass? (String.ofList (Text.cutAt ':' (afterCaret cs).2).1)).bind fun s =>
          some (negatedIf (afterCaret cs).1 (foldedIf flags s), rest) := rfl

/-- A named class is read up to its closing bracket, whatever follows. -/
theorem namedClass?_eq_some (read : namedClass? flags cs = some (s, rest)) :
    ∃ p, cs = p ++ rest ∧ ∀ more, namedClass? flags (p ++ more) = some (s, more) := by
  simp only [namedClass?_eq, Option.bind_eq_some_iff, Option.some.injEq, Prod.mk.injEq] at read
  obtain ⟨cs, colon, _, found, _, bracket, c, known, rfl, rfl⟩ := read
  obtain rfl := Text.dropMark?_single colon
  obtain rfl := Text.dropMark?_single bracket
  generalize cut : Text.cutAt ':' (afterCaret cs).2 = n at found known
  obtain ⟨name, _⟩ := n
  simp only at found known
  subst found
  obtain ⟨absent, inner⟩ := Text.cutAt_eq_some_iff.1 cut
  have again (more : List Char) : Text.cutAt ':' (name ++ ':' :: ']' :: more) = (name, some (']' :: more)) :=
    Text.cutAt_eq_some_iff.2 ⟨absent, rfl⟩
  by_cases caret : ∃ m, cs = '^' :: m
  · obtain ⟨m, rfl⟩ := caret
    simp only [afterCaret] at inner
    refine ⟨':' :: '^' :: (name ++ [':', ']']), by simp [inner], fun more => ?_⟩
    simp [namedClass?_eq, Text.dropMark?, afterCaret, again, known]
  · have plain : afterCaret cs = (false, cs) := afterCaret_of_ne fun m same => caret ⟨m, same⟩
    simp only [plain] at inner
    cases name with
    | nil => exact absurd known (by simp [asciiClass?])
    | cons d name =>
      have other (more : List Char) : afterCaret (d :: name ++ more) = (false, d :: name ++ more) :=
        afterCaret_of_ne fun m begins => caret ⟨_, by rw [inner, (List.cons.inj begins).1, List.cons_append]⟩
      refine ⟨':' :: (d :: name ++ [':', ']']), by simp [inner], fun more => ?_⟩
      have same : ':' :: (d :: name ++ [':', ']']) ++ more = ':' :: (d :: name ++ ':' :: ']' :: more) := by simp
      rw [same, namedClass?_eq, plain]
      simp only [Text.dropMark?, if_true, Option.bind_some, other, again, known]

/-! ## Items and ranges -/

theorem setItem?_suffix (read : setItem? flags cs = some (e, rest)) : rest <:+ cs.tail := by
  unfold setItem? at read
  split at read
  · cases read
  · exact (escape?_suffix read).trans (List.tail_suffix _)
  · cases read
    exact List.suffix_refl _

/-- An item may look ahead only if it is a boundary, which no set can hold. -/
theorem setItem?_cut (read : setItem? flags (cs ++ ')' :: u) = some (e, rest ++ ')' :: u)) :
    setItem? flags cs = some (e, rest) ∨ ∃ p, e = .place p := by
  cases cs with
  | nil => exact absurd (setItem?_suffix read) (not_suffix_after _ _)
  | cons c cs =>
    by_cases backslash : c = '\\'
    · subst backslash
      rcases escape?_cut read with same | ⟨p, m, edge, -⟩
      · exact .inl same
      · exact .inr ⟨p, edge⟩
    · simp only [List.cons_append, setItem?] at read ⊢
      exact .inl (cut_of_eq read)

/-- What follows the low end of a range: the high end, or nothing. Then a hyphen may still stand for itself. -/
def rangeEnd? (flags : Flags) (cs : List Char) : Option (Option Escape × List Char) :=
  match skip flags.spaced cs with
  | [] => none
  | '-' :: more =>
    match skip flags.spaced more with
    | ']' :: _ => some (none, '-' :: more)
    | '-' :: _ => some (none, '-' :: more)
    | more => (setItem? flags more).bind fun high => some (some high.1, high.2)
  | rest => some (none, rest)

/-- The symbols of a range, or those of its low end if that stands alone. -/
def rangeSymbols? (flags : Flags) (low : Escape) (high : Option Escape) : Option Symbols :=
  match high with
  | none => setSymbols? flags low
  | some high => do
    let low ← setLiteral? flags low
    let high ← setLiteral? flags high
    if low ≤ high then some (.within [(low.toNat, high.toNat)]) else none

theorem rangeEnd?_of_item {more : List Char} (start : skip flags.spaced cs = '-' :: more)
    (noBracket : ∀ n, skip flags.spaced more ≠ ']' :: n) (noHyphen : ∀ n, skip flags.spaced more ≠ '-' :: n) :
    rangeEnd? flags cs =
      (setItem? flags (skip flags.spaced more)).bind fun high => some (some high.1, high.2) := by
  simp only [rangeEnd?, start]

theorem setRange?_eq (flags : Flags) (cs : List Char) : setRange? flags cs =
    (setItem? flags cs).bind fun low => (rangeEnd? flags low.2).bind fun high =>
      (rangeSymbols? flags low.1 high.1).bind fun s => some (s, high.2) := by
  unfold setRange?
  cases setItem? flags cs with
  | none => rfl
  | some low =>
    simp only [Option.bind_eq_bind, Option.bind_some]
    split
    · rename_i blank
      simp only [rangeEnd?, blank, Option.bind_none]
    · rename_i more start
      split
      · rename_i behind
        simp only [rangeEnd?, start, behind, rangeSymbols?, Option.bind_some, Option.pure_def]
      · rename_i behind
        simp only [rangeEnd?, start, behind, rangeSymbols?, Option.bind_some, Option.pure_def]
      · rename_i noBracket noHyphen
        rw [rangeEnd?_of_item start noBracket noHyphen]
        cases setItem? flags (skip flags.spaced more) with
        | none => rfl
        | some high =>
          simp only [Option.bind_some, rangeSymbols?]
          cases setLiteral? flags low.1 with
          | none => rfl
          | some l =>
            cases setLiteral? flags high.1 with
            | none => rfl
            | some h =>
              simp only [Option.bind_eq_bind, Option.bind_some]
              split <;> rfl
    · rename_i some_left noHyphen
      have alone : rangeEnd? flags low.2 = some (none, skip flags.spaced low.2) := by
        unfold rangeEnd?
        split
        · exact absurd ‹_› some_left
        · exact absurd ‹_› (noHyphen _)
        · rfl
      simp only [alone, rangeSymbols?, Option.bind_some, Option.pure_def]

theorem rangeEnd?_suffix {high : Option Escape} (read : rangeEnd? flags cs = some (high, rest)) :
    rest <:+ skip flags.spaced cs := by
  unfold rangeEnd? at read
  split at read
  · cases read
  · rename_i more start
    rw [start]
    split at read
    · cases read
      exact List.suffix_refl _
    · cases read
      exact List.suffix_refl _
    · simp only [Option.bind_eq_some_iff, Prod.exists, Option.some.injEq, Prod.mk.injEq] at read
      obtain ⟨e, rest, item, -, rfl⟩ := read
      exact (((setItem?_suffix item).trans (List.tail_suffix _)).trans (skip_suffix _ _)).trans (List.suffix_cons _ _)
  · cases read
    exact List.suffix_refl _

/-- The end of a range may depend on what follows: if nothing is left, or a hyphen and then nothing. -/
theorem rangeEnd?_cut {high : Option Escape} (read : rangeEnd? flags (cs ++ ')' :: u) = some (high, rest ++ ')' :: u))
    (more : rest ≠ []) (hyphen : ∀ m, rest = '-' :: m → skip flags.spaced m ≠ []) :
    rangeEnd? flags cs = some (high, rest) ∨ ∃ p, high = some (.place p) := by
  have kept := skip_append_of_left (rangeEnd?_suffix read)
  simp only [rangeEnd?, kept] at read ⊢
  split at read
  · cases read
  · rename_i after
    obtain ⟨m, start, rfl⟩ := eq_cons_of_append after (by decide)
    simp only [start]
    -- a hyphen that stands for itself: what is behind it decides that, and must be there already
    have alone {c : Char} {n : List Char} (behind : skip flags.spaced (m ++ ')' :: u) = c :: n) (other : c ≠ ')')
        (read : some (none, '-' :: (m ++ ')' :: u)) = some (high, rest ++ ')' :: u)) :
        some (none, '-' :: m) = some (high, rest) ∧ ∃ ds, skip flags.spaced m = c :: ds := by
      have same : some (none, '-' :: m) = some (high, rest) := cut_of_eq read
      refine ⟨same, ?_⟩
      simp only [Option.some.injEq, Prod.mk.injEq] at same
      rw [skip_append_of_ne_nil (hyphen m same.2.symm)] at behind
      obtain ⟨ds, first, -⟩ := eq_cons_of_append behind other
      exact ⟨ds, first⟩
    split at read
    · rename_i behind
      obtain ⟨same, ds, first⟩ := alone behind (by decide) read
      exact .inl (by simpa only [first] using same)
    · rename_i behind
      obtain ⟨same, ds, first⟩ := alone behind (by decide) read
      exact .inl (by simpa only [first] using same)
    · rename_i noBracket noHyphen
      simp only [Option.bind_eq_some_iff, Prod.exists, Option.some.injEq, Prod.mk.injEq] at read
      obtain ⟨e, left, item, rfl, rfl⟩ := read
      have behind := skip_append_of_left ((setItem?_suffix item).trans (List.tail_suffix _))
      rw [behind] at item noBracket noHyphen
      rcases setItem?_cut item with same | ⟨p, rfl⟩
      · left
        split
        · rename_i first
          exact (noBracket _ (by rw [first, List.cons_append])).elim
        · rename_i first
          exact (noHyphen _ (by rw [first, List.cons_append])).elim
        · rw [same, Option.bind_some]
      · exact .inr ⟨p, rfl⟩
  · rename_i noHyphen
    have same : some (none, skip flags.spaced cs) = some (high, rest) := cut_of_eq read
    left
    split
    · rename_i blank
      simp only [blank, Option.some.injEq, Prod.mk.injEq] at same
      exact absurd same.2.symm more
    · rename_i first
      exact (noHyphen _ (by rw [first, List.cons_append])).elim
    · exact same

theorem rangeSymbols?_place (flags : Flags) (p : Place) (high : Option Escape) :
    rangeSymbols? flags (.place p) high = none := by
  cases high <;> rfl

theorem rangeSymbols?_to_place (flags : Flags) (low : Escape) (p : Place) :
    rangeSymbols? flags low (some (.place p)) = none := by
  cases setLiteral? flags low <;> simp [rangeSymbols?, setLiteral?]

theorem setRange?_suffix (read : setRange? flags cs = some (s, rest)) : rest <:+ cs.tail := by
  simp only [setRange?_eq, Option.bind_eq_some_iff, Prod.exists, Option.some.injEq, Prod.mk.injEq] at read
  obtain ⟨low, r, item, high, rest, range, s, -, rfl, rfl⟩ := read
  exact ((rangeEnd?_suffix range).trans (skip_suffix _ _)).trans (setItem?_suffix item)

theorem setRange?_cut (read : setRange? flags (cs ++ ')' :: u) = some (s, rest ++ ')' :: u)) (more : rest ≠ [])
    (hyphen : ∀ m, rest = '-' :: m → skip flags.spaced m ≠ []) : setRange? flags cs = some (s, rest) := by
  simp only [setRange?_eq, Option.bind_eq_some_iff, Prod.exists, Option.some.injEq, Prod.mk.injEq] at read ⊢
  obtain ⟨low, r, item, high, _, range, s, held, rfl, rfl⟩ := read
  obtain ⟨r, rfl⟩ := (List.suffix_append rest _).trans ((rangeEnd?_suffix range).trans (skip_suffix _ _))
  rcases setItem?_cut item with sameItem | ⟨p, rfl⟩
  · rcases rangeEnd?_cut range more hyphen with sameRange | ⟨p, rfl⟩
    · exact ⟨low, r, sameItem, high, rest, sameRange, s, held, rfl, rfl⟩
    · rw [rangeSymbols?_to_place] at held
      cases held
  · rw [rangeSymbols?_place] at held
    cases held

/-! ## The front of a set -/

theorem leadingHyphens_eq_run (spaced : Bool) (fuel : Nat) (cs : List Char) : leadingHyphens spaced fuel cs =
    ((run (· = '-') spaced fuel cs).1.foldr (fun _ s => .union (.single '-'.toNat) s) .nothing,
      (run (· = '-') spaced fuel cs).2) := by
  induction fuel generalizing cs with
  | zero => rfl
  | succ fuel ih =>
    cases cs with
    | nil => rfl
    | cons c cs =>
      by_cases hyphen : c = '-'
      · subst hyphen
        simp only [leadingHyphens, run, ih, decide_true, if_true, List.foldr_cons]
      · simp [leadingHyphens, run, hyphen]

theorem leadingHyphens_suffix (spaced : Bool) (fuel : Nat) (cs : List Char) :
    (leadingHyphens spaced fuel cs).2 <:+ cs := by
  rw [leadingHyphens_eq_run]
  exact run_suffix _ _ _ _

theorem leadingHyphens_append {spaced : Bool}
    (kept : ')' :: u <:+ (leadingHyphens spaced (cs ++ ')' :: u).length (cs ++ ')' :: u)).2) :
    leadingHyphens spaced (cs ++ ')' :: u).length (cs ++ ')' :: u) =
      ((leadingHyphens spaced cs.length cs).1, (leadingHyphens spaced cs.length cs).2 ++ ')' :: u) := by
  rw [leadingHyphens_eq_run] at kept ⊢
  rw [run_cut (by decide) kept (Nat.le_refl _) (Nat.le_refl _), leadingHyphens_eq_run]

/-- Whether a set is negated, and what follows the mark for that. -/
def negation (spaced : Bool) (cs : List Char) : Bool × List Char :=
  match skip spaced cs with
  | '^' :: rest => (true, skip spaced rest)
  | cs => (false, cs)

theorem setHead_eq (spaced : Bool) (cs : List Char) : setHead spaced cs =
    match leadingHyphens spaced (negation spaced cs).2.length (negation spaced cs).2 with
    | (.within [], ']' :: rest) => ((negation spaced cs).1, .single ']'.toNat, skip spaced rest)
    | (s, rest) => ((negation spaced cs).1, s, rest) := rfl

theorem negation_suffix (spaced : Bool) (cs : List Char) : (negation spaced cs).2 <:+ skip spaced cs := by
  unfold negation
  split
  · rename_i start
    exact (skip_suffix _ _).trans (start ▸ List.suffix_cons _ _)
  · exact List.suffix_refl _

theorem negation_append {spaced : Bool} (kept : ')' :: u <:+ (negation spaced (cs ++ ')' :: u)).2) :
    negation spaced (cs ++ ')' :: u) = ((negation spaced cs).1, (negation spaced cs).2 ++ ')' :: u) := by
  have start := skip_append (kept.trans (negation_suffix spaced _))
  simp only [negation, start] at kept ⊢
  split at kept
  · rename_i caret
    obtain ⟨m, first, rfl⟩ := eq_cons_of_append caret (by decide)
    simp only [first, skip_append kept]
  · rename_i other
    split
    · rename_i first
      exact (other _ (by rw [first, List.cons_append])).elim
    · rfl

theorem setHead_suffix (spaced : Bool) (cs : List Char) : (setHead spaced cs).2.2 <:+ (negation spaced cs).2 := by
  have within := leadingHyphens_suffix spaced (negation spaced cs).2.length (negation spaced cs).2
  rw [setHead_eq]
  split
  · rename_i bracket
    rw [bracket] at within
    exact ((skip_suffix _ _).trans (List.suffix_cons _ _)).trans within
  · rename_i hyphens
    rw [hyphens] at within
    exact within

theorem setHead_append {spaced : Bool} (kept : ')' :: u <:+ (setHead spaced (cs ++ ')' :: u)).2.2) :
    setHead spaced (cs ++ ')' :: u) =
      ((setHead spaced cs).1, (setHead spaced cs).2.1, (setHead spaced cs).2.2 ++ ')' :: u) := by
  have front := negation_append (kept.trans (setHead_suffix spaced _))
  simp only [setHead_eq, front] at kept ⊢
  generalize (negation spaced cs).2 = m at kept ⊢
  have hyphens : ')' :: u <:+ (leadingHyphens spaced (m ++ ')' :: u).length (m ++ ')' :: u)).2 := by
    split at kept
    · rename_i same
      rw [same]
      exact (kept.trans (skip_suffix _ _)).trans (List.suffix_cons _ _)
    · rename_i same
      rw [same]
      exact kept
  rw [leadingHyphens_append hyphens] at kept ⊢
  generalize leadingHyphens spaced m.length m = n at kept ⊢
  obtain ⟨s, left⟩ := n
  split at kept
  · rename_i same
    obtain ⟨rfl, after⟩ := Prod.mk.inj same
    obtain ⟨r, rfl, rfl⟩ := eq_cons_of_append after (by decide)
    simp only [skip_append kept]
  · rename_i other same
    obtain ⟨rfl, rfl⟩ := Prod.mk.inj same
    split
    · rename_i first
      obtain ⟨rfl, rfl⟩ := Prod.mk.inj first
      exact (other _ rfl (List.cons_append ..)).elim
    · rename_i first
      obtain ⟨rfl, rfl⟩ := Prod.mk.inj first
      rfl

/-! ## Sets -/

section Items

variable {fuel fuel' : Nat} {pending : Pending} {start : Symbols}

/-- A set behind its opening bracket. -/
def wholeSet? (fuel : Nat) (flags : Flags) (cs : List Char) : Option (Symbols × List Char) :=
  (setItems? flags fuel none (setHead flags.spaced cs).2.1 (setHead flags.spaced cs).2.2).bind fun inner =>
    (checked? flags (negatedIf (setHead flags.spaced cs).1 (foldedIf flags inner.1))).bind fun s => some (s, inner.2)

/-- What a bracket opens within a set: a class with a name, or a set of its own. -/
def innerSet? (fuel : Nat) (flags : Flags) (cs : List Char) : Option (Symbols × List Char) :=
  match namedClass? flags cs with
  | some c => (checked? flags c.1).bind fun s => some (s, c.2)
  | none => wholeSet? fuel flags cs

theorem bracket?_eq (flags : Flags) (cs : List Char) :
    bracket? flags cs = wholeSet? ((setHead flags.spaced cs).2.2.length + 1) flags cs := rfl

theorem setItems?_bracket {m : List Char} (begins : skip flags.spaced cs = '[' :: m) :
    setItems? flags (fuel + 1) pending start cs =
      (innerSet? fuel flags m).bind fun inner => setItems? flags fuel pending (.union start inner.1) inner.2 := by
  simp only [setItems?, begins, innerSet?]
  cases namedClass? flags m with
  | some c => simp only [Option.bind_eq_bind, Option.bind_assoc, Option.bind_some]
  | none => simp only [wholeSet?, Option.bind_eq_bind, Option.bind_assoc, Option.bind_some]

theorem wholeSet?_suffix (read : wholeSet? fuel flags cs = some (s, rest))
    (later : ∀ {start cs s rest}, setItems? flags fuel none start cs = some (s, rest) → ']' :: rest <:+ cs) :
    rest <:+ cs := by
  simp only [wholeSet?, Option.bind_eq_some_iff, Prod.exists, Option.some.injEq, Prod.mk.injEq] at read
  obtain ⟨inner, r, items, _, -, -, rfl⟩ := read
  have within := (setHead_suffix flags.spaced cs).trans (negation_suffix flags.spaced cs)
  exact (((List.suffix_cons _ _).trans (later items)).trans within).trans (skip_suffix _ _)

theorem innerSet?_suffix (read : innerSet? fuel flags cs = some (s, rest))
    (later : ∀ {start cs s rest}, setItems? flags fuel none start cs = some (s, rest) → ']' :: rest <:+ cs) :
    rest <:+ cs := by
  unfold innerSet? at read
  split at read
  · rename_i named
    simp only [Option.bind_eq_some_iff, Option.some.injEq, Prod.mk.injEq] at read
    obtain ⟨_, -, -, rfl⟩ := read
    obtain ⟨p, rfl, -⟩ := namedClass?_eq_some named
    exact List.suffix_append _ _
  · exact wholeSet?_suffix read later

theorem setItems?_suffix (read : setItems? flags fuel pending start cs = some (s, rest)) :
    ']' :: rest <:+ skip flags.spaced cs := by
  induction fuel generalizing pending start cs s rest with
  | zero => simp [setItems?] at read
  | succ fuel ih =>
    have later {pending : Pending} {start : Symbols} {r : List Char}
        (more : setItems? flags fuel pending start r = some (s, rest)) : ']' :: rest <:+ r :=
      (ih more).trans (skip_suffix _ _)
    have whole := read
    simp only [setItems?] at read
    split at read
    · cases read
    · rename_i first
      obtain ⟨inner, opened, more⟩ := Option.bind_eq_some_iff.1 (setItems?_bracket first ▸ whole)
      have after := innerSet?_suffix opened fun nested => (ih nested).trans (skip_suffix _ _)
      rw [first]
      exact ((later more).trans after).trans (List.suffix_cons _ _)
    · rename_i first
      cases read
      exact first ▸ List.suffix_refl _
    case h_4 | h_5 | h_6 =>
      rename_i first
      rw [first]
      exact ((later read).trans (List.suffix_cons _ _)).trans (List.suffix_cons _ _)
    case h_7 =>
      simp only [Option.bind_eq_bind, Option.bind_eq_some_iff, Prod.exists] at read
      obtain ⟨item, r, range, more⟩ := read
      exact ((later more).trans (setRange?_suffix range)).trans (List.tail_suffix _)

theorem setItems?_kept (read : setItems? flags fuel pending start cs = some (s, rest ++ ')' :: u)) :
    ')' :: u <:+ skip flags.spaced cs :=
  ((List.suffix_append rest _).trans (List.suffix_cons _ _)).trans (setItems?_suffix read)

theorem setItems?_of_blank (blank : skip flags.spaced cs = []) : setItems? flags fuel pending start cs = none := by
  cases fuel with
  | zero => rfl
  | succ fuel => simp only [setItems?, blank]

/-- A set does not end behind a hyphen. -/
theorem setItems?_of_hyphen (blank : skip flags.spaced cs = []) :
    setItems? flags fuel pending start ('-' :: cs) = none := by
  cases fuel with
  | zero => rfl
  | succ fuel =>
    have single : ∀ m, cs ≠ '-' :: m := by
      rintro m rfl
      rw [skip_cons _ (by decide) (by decide)] at blank
      cases blank
    have range : setRange? flags ('-' :: cs) = none := by
      simp [setRange?_eq, setItem?, rangeEnd?, blank]
    simp only [setItems?, skip_cons flags.spaced (show Text.isBlank '-' = false by decide) (by decide)]
    split
    case h_5 =>
      rename_i twice
      exact absurd (List.cons.inj twice).2 (single _)
    case h_7 =>
      rw [range]
      rfl
    all_goals
      rename_i other
      cases other

theorem wholeSet?_cut (read : wholeSet? fuel flags (cs ++ ')' :: u) = some (s, rest ++ ')' :: u))
    (cut : ∀ {start cs s rest}, setItems? flags fuel none start (cs ++ ')' :: u) = some (s, rest ++ ')' :: u) →
      cs.length < fuel' → setItems? flags fuel' none start cs = some (s, rest))
    (enough : (setHead flags.spaced cs).2.2.length < fuel') : wholeSet? fuel' flags cs = some (s, rest) := by
  simp only [wholeSet?, Option.bind_eq_some_iff, Prod.exists, Option.some.injEq, Prod.mk.injEq] at read ⊢
  obtain ⟨inner, _, items, _, checked, rfl, rfl⟩ := read
  have head := setHead_append ((setItems?_kept items).trans (skip_suffix _ _))
  rw [head] at items checked
  exact ⟨inner, rest, cut items enough, _, checked, rfl, rfl⟩

theorem innerSet?_cut (read : innerSet? fuel flags (cs ++ ')' :: u) = some (s, rest ++ ')' :: u))
    (cut : ∀ {start cs s rest}, setItems? flags fuel none start (cs ++ ')' :: u) = some (s, rest ++ ')' :: u) →
      cs.length < fuel' → setItems? flags fuel' none start cs = some (s, rest))
    (enough : cs.length < fuel') : innerSet? fuel' flags cs = some (s, rest) := by
  unfold innerSet? at read ⊢
  split at read
  · rename_i named
    simp only [Option.bind_eq_some_iff, Option.some.injEq, Prod.mk.injEq] at read
    obtain ⟨_, checked, rfl, left⟩ := read
    obtain ⟨p, same, always⟩ := namedClass?_eq_some named
    rw [left, ← List.append_assoc, List.append_cancel_right_eq] at same
    rw [same, always]
    simp only [checked, Option.bind_some]
  · rename_i unnamed
    have none : namedClass? flags cs = none := by
      rw [Option.eq_none_iff_forall_ne_some]
      rintro ⟨c, r⟩ named
      obtain ⟨p, rfl, always⟩ := namedClass?_eq_some named
      rw [List.append_assoc, always] at unnamed
      cases unnamed
    have front := ((setHead_suffix flags.spaced cs).trans (negation_suffix _ cs)).trans (skip_suffix _ cs)
    rw [none]
    exact wholeSet?_cut read cut (Nat.lt_of_le_of_lt front.length_le enough)

/-- What is read next is there before the parenthesis, or the set would not be closed before it. -/
theorem setItems?_cut (read : setItems? flags fuel pending start (cs ++ ')' :: u) = some (s, rest ++ ')' :: u))
    (enough : cs.length < fuel') : setItems? flags fuel' pending start cs = some (s, rest) := by
  induction fuel generalizing pending start cs s rest fuel' with
  | zero => simp [setItems?] at read
  | succ fuel ih =>
    obtain ⟨fuel', rfl⟩ := Nat.exists_eq_add_one_of_ne_zero (Nat.ne_zero_of_lt enough)
    have shorter := (skip_suffix flags.spaced cs).length_le
    have kept := skip_append (setItems?_kept read)
    have whole := read
    simp only [setItems?, kept] at read ⊢
    split at read
    · cases read
    · rename_i bracket
      obtain ⟨m, first, rfl⟩ := eq_cons_of_append bracket (by decide)
      obtain ⟨⟨inner, r⟩, opened, more⟩ :=
        Option.bind_eq_some_iff.1 (setItems?_bracket (kept.trans bracket) ▸ whole)
      obtain ⟨r, rfl⟩ := (setItems?_kept more).trans (skip_suffix _ _)
      simp only [first, List.length_cons] at shorter
      have same : innerSet? fuel' flags m = some (inner, r) := innerSet?_cut opened ih (by omega)
      have forward := (innerSet?_suffix same fun nested => (setItems?_suffix nested).trans (skip_suffix _ _)).length_le
      have alone : setItems? flags (fuel' + 1) pending start cs = some (s, rest) := by
        rw [setItems?_bracket first, same, Option.bind_some]
        exact ih more (show r.length < fuel' by omega)
      simpa only [setItems?, first] using alone
    · rename_i bracket
      obtain ⟨m, first, rfl⟩ := eq_cons_of_append bracket (by decide)
      simp only [first]
      exact cut_of_eq read
    case h_4 | h_5 | h_6 =>
      rename_i operator
      obtain ⟨n, first, again⟩ := eq_cons_of_append operator (by decide)
      obtain ⟨m, rfl, rfl⟩ := eq_cons_of_append again.symm (by decide)
      simp only [first, List.length_cons] at shorter ⊢
      exact ih read (by omega)
    case h_7 =>
      rename_i noBracket noClosing noAnd noHyphens noTildes
      simp only [Option.bind_eq_bind, Option.bind_eq_some_iff, Prod.exists] at read
      obtain ⟨item, r, range, more⟩ := read
      obtain ⟨r, rfl⟩ := (setItems?_kept more).trans (skip_suffix _ _)
      have goes := ih more (Nat.lt_succ_self _)
      have visible : r ≠ [] := by
        rintro rfl
        rw [setItems?_of_blank (skip_nil _)] at goes
        cases goes
      have hyphen : ∀ m, r = '-' :: m → skip flags.spaced m ≠ [] := by
        rintro m rfl blank
        rw [setItems?_of_hyphen blank] at goes
        cases goes
      have same := setRange?_cut range visible hyphen
      have forward := (setRange?_suffix same).length_le
      split
      case h_1 blank =>
        rw [blank] at same
        cases same
      case h_2 first => exact (noBracket _ (by rw [first, List.cons_append])).elim
      case h_3 first => exact (noClosing _ (by rw [first, List.cons_append])).elim
      case h_4 first => exact (noAnd _ (by rw [first, List.cons_append, List.cons_append])).elim
      case h_5 first => exact (noHyphens _ (by rw [first, List.cons_append, List.cons_append])).elim
      case h_6 first => exact (noTildes _ (by rw [first, List.cons_append, List.cons_append])).elim
      case h_7 =>
        simp only [same, Option.bind_eq_bind, Option.bind_some]
        have some := List.length_pos_of_ne_nil visible
        rw [List.length_tail] at forward
        exact ih more (by omega)

end Items

theorem bracket?_suffix (read : bracket? flags cs = some (s, rest)) : rest <:+ cs :=
  wholeSet?_suffix (bracket?_eq flags cs ▸ read) fun items => (setItems?_suffix items).trans (skip_suffix _ _)

theorem bracket?_cut (read : bracket? flags (cs ++ ')' :: u) = some (s, rest ++ ')' :: u)) :
    bracket? flags cs = some (s, rest) :=
  bracket?_eq flags cs ▸ wholeSet?_cut (bracket?_eq flags _ ▸ read) setItems?_cut (Nat.lt_succ_self _)

end Regex

end WorkflowCatalog
