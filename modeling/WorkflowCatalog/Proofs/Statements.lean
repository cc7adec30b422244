import Mathlib.Data.List.TakeWhile
import WorkflowCatalog.Descriptor.Statement
import WorkflowCatalog.Proofs.Addresses

/-!
# Statements that a scan reads

A keyword and a path in quotes stand behind blanks. A scan at the starts of lines reads every statement that no earlier
one runs into. A scan for one statement anywhere reads the one that begins first, so text in front of others counts for
as far as a statement begins in it.
-/
namespace WorkflowCatalog.Statement

variable {cs rest path : List Char}

/-! ## Keywords and paths -/

theorem blanks_append {indent : List Char} (blank : ∀ c ∈ indent, Text.isBlank c = true) (cs : List Char) :
    blanks (indent ++ cs) = blanks cs :=
  List.dropWhile_append_of_pos blank

theorem blanks_cons {c : Char} (visible : Text.isBlank c = false) (cs : List Char) : blanks (c :: cs) = c :: cs :=
  List.dropWhile_cons_of_neg (by simp [visible])

theorem exists_blanks (cs : List Char) : ∃ indent, (∀ c ∈ indent, Text.isBlank c = true) ∧ cs = indent ++ blanks cs :=
  ⟨cs.takeWhile Text.isBlank, fun _ => List.mem_takeWhile_imp, List.takeWhile_append_dropWhile.symm⟩

theorem isBlank_of_isQuote {q : Char} (quote : isQuote q = true) : Text.isBlank q = false := by
  have : q = '"' ∨ q = '\'' := by simpa [isQuote] using quote
  rcases this with rfl | rfl <;> decide

/-- Either quote may open the path, and the next quote of either kind closes it. -/
theorem quoted?_eq_some_iff : quoted? cs = some (path, rest) ↔
    ∃ opening closing, isQuote opening = true ∧ isQuote closing = true ∧ path ≠ [] ∧ (∀ c ∈ path, isQuote c = false) ∧
      cs = opening :: (path ++ closing :: rest) := by
  constructor
  · intro read
    cases cs with
    | nil => exact nomatch read
    | cons opening cs =>
      unfold quoted? at read
      have cut : cs.takeWhile (fun d => !isQuote d) ++ cs.dropWhile (fun d => !isQuote d) = cs :=
        List.takeWhile_append_dropWhile
      have inner : ∀ c ∈ cs.takeWhile fun d => !isQuote d, isQuote c = false := fun c hc => by
        simpa using List.mem_takeWhile_imp hc
      dsimp only at read
      split at read
      · rename_i c path' closing rest' quote body tail
        obtain ⟨rfl, rfl⟩ := Prod.mk.inj (Option.some.inj read)
        have closes := List.head?_dropWhile_not (fun d => !isQuote d) cs
        rw [tail] at closes
        refine ⟨opening, closing, quote, by simpa using closes, body ▸ List.cons_ne_nil _ _, inner, ?_⟩
        rw [← tail, cut]
      · exact nomatch read
  · rintro ⟨opening, closing, opens, closes, some_path, plain, rfl⟩
    have inner : ∀ c ∈ path, (!isQuote c) = true := fun c hc => by rw [plain c hc, Bool.not_false]
    have body : (path ++ closing :: rest).takeWhile (fun d => !isQuote d) = path := by
      rw [List.takeWhile_append_of_pos inner, List.takeWhile_cons_of_neg (by simp [closes]), List.append_nil]
    have tail : (path ++ closing :: rest).dropWhile (fun d => !isQuote d) = closing :: rest := by
      rw [List.dropWhile_append_of_pos inner, List.dropWhile_cons_of_neg (by simp [closes])]
    obtain ⟨c, path, rfl⟩ := List.exists_cons_of_ne_nil some_path
    simp only [quoted?, opens, body, tail]

theorem someBlanks?_eq_some_iff {c : Char} (visible : Text.isBlank c = false) :
    someBlanks? cs = some (c :: rest) ↔
      ∃ gap, gap ≠ [] ∧ (∀ d ∈ gap, Text.isBlank d = true) ∧ cs = gap ++ c :: rest := by
  constructor
  · intro read
    cases cs with
    | nil => exact nomatch read
    | cons d cs =>
      rw [someBlanks?, Option.ite_none_right_eq_some] at read
      obtain ⟨blank, left⟩ := read
      obtain ⟨gap, blanks_gap, cut⟩ := exists_blanks cs
      rw [Option.some.inj left] at cut
      exact ⟨d :: gap, List.cons_ne_nil d gap, List.forall_mem_cons.mpr ⟨blank, blanks_gap⟩, by rw [cut]; rfl⟩
  · rintro ⟨gap, some_gap, blank, rfl⟩
    obtain ⟨d, gap, rfl⟩ := List.exists_cons_of_ne_nil some_gap
    rw [List.forall_mem_cons] at blank
    rw [List.cons_append, someBlanks?, if_pos blank.1, blanks_append blank.2, blanks_cons visible]

/-- What stands behind a keyword and blanks. -/
def behind? (keyword : String) (cs : List Char) : Option (List Char) :=
  (Text.dropMark? keyword.toList (blanks cs)).bind someBlanks?

/-- The text begins with blanks, the keyword, more blanks, and a path between these quotes. -/
def Begins (keyword : String) (cs : List Char) (opening : Char) (path : List Char) (closing : Char)
    (rest : List Char) : Prop :=
  ∃ indent gap, (∀ c ∈ indent, Text.isBlank c = true) ∧ gap ≠ [] ∧ (∀ c ∈ gap, Text.isBlank c = true) ∧
    isQuote opening = true ∧ isQuote closing = true ∧
    cs = indent ++ (keyword.toList ++ (gap ++ opening :: (path ++ closing :: rest)))

section Keywords

variable {keyword : String} {opening closing : Char}

/-- A keyword does not begin with a blank. -/
def IsWord (keyword : String) : Prop := ∃ c more, keyword.toList = c :: more ∧ Text.isBlank c = false

theorem begins_iff (word : IsWord keyword) : Begins keyword cs opening path closing rest ↔
    isQuote opening = true ∧ isQuote closing = true ∧
      behind? keyword cs = some (opening :: (path ++ closing :: rest)) := by
  simp only [behind?, Option.bind_eq_some_iff, Text.dropMark?_eq_some_iff]
  constructor
  · rintro ⟨indent, gap, blank, some_gap, blank_gap, opens, closes, rfl⟩
    refine ⟨opens, closes, _, ?_,
      (someBlanks?_eq_some_iff (isBlank_of_isQuote opens)).mpr ⟨gap, some_gap, blank_gap, rfl⟩⟩
    obtain ⟨c, more, spelled, visible⟩ := word
    rw [spelled, blanks_append blank, List.cons_append, blanks_cons visible]
  · rintro ⟨opens, closes, after, written, spaced⟩
    obtain ⟨indent, blank, cut⟩ := exists_blanks cs
    obtain ⟨gap, some_gap, blank_gap, rfl⟩ := (someBlanks?_eq_some_iff (isBlank_of_isQuote opens)).mp spaced
    exact ⟨indent, gap, blank, some_gap, blank_gap, opens, closes, written ▸ cut⟩

theorem behind?_quoted (word : IsWord keyword) : (behind? keyword cs).bind quoted? = some (path, rest) ↔
    ∃ opening closing, Begins keyword cs opening path closing rest ∧ path ≠ [] ∧ ∀ c ∈ path, isQuote c = false := by
  simp only [Option.bind_eq_some_iff, quoted?_eq_some_iff, begins_iff word]
  constructor
  · rintro ⟨_, read, opening, closing, opens, closes, some_path, plain, rfl⟩
    exact ⟨opening, closing, ⟨opens, closes, read⟩, some_path, plain⟩
  · rintro ⟨opening, closing, ⟨opens, closes, read⟩, some_path, plain⟩
    exact ⟨_, read, opening, closing, opens, closes, some_path, plain, rfl⟩

/-- The text begins with the keyword and this path: what stands up to the next quote of either kind, without the blanks
around it. -/
def Names (keyword : String) (cs : List Char) (path : String) (rest : List Char) : Prop :=
  ∃ opening body closing, Begins keyword cs opening body closing rest ∧ body ≠ [] ∧ (∀ c ∈ body, isQuote c = false) ∧
    path = String.ofList (Text.trim body)

/-- What a form says that reads a keyword and a path. -/
def named? (keyword : String) (cs : List Char) : Option (String × List Char) :=
  ((behind? keyword cs).bind quoted?).map fun read => (String.ofList (Text.trim read.1), read.2)

theorem named?_eq_some_iff {path : String} (word : IsWord keyword) :
    named? keyword cs = some (path, rest) ↔ Names keyword cs path rest := by
  rw [named?, Option.map_eq_some_iff, Prod.exists]
  simp only [behind?_quoted word, Prod.mk.injEq]
  constructor
  · rintro ⟨body, _, ⟨opening, closing, begins, some_body, plain⟩, rfl, rfl⟩
    exact ⟨opening, body, closing, begins, some_body, plain, rfl⟩
  · rintro ⟨opening, body, closing, begins, some_body, plain, rfl⟩
    exact ⟨body, rest, ⟨opening, closing, begins, some_body, plain⟩, rfl, rfl⟩

/-- A form that reads a keyword and a path does no more than that. -/
theorem behind?_map {β : Type} (f : List Char × List Char → β) :
    ((Text.dropMark? keyword.toList (blanks cs)).bind fun rest => (someBlanks? rest).bind fun rest =>
      (quoted? rest).bind fun read => some (f read)) = ((behind? keyword cs).bind quoted?).map f := by
  rw [behind?]
  cases Text.dropMark? keyword.toList (blanks cs) with
  | none => rfl
  | some rest =>
    cases spaced : someBlanks? rest with
    | none => simp [spaced]
    | some rest => cases quoted : quoted? rest <;> simp [spaced, quoted]

/-- A path that does not hold the quote around it is the only such path. -/
theorem Begins.unique {quote : Char} {path' rest' : List Char} (word : IsWord keyword)
    (h : Begins keyword cs opening path opening rest) (plain : opening ∉ path)
    (h' : Begins keyword cs quote path' quote rest') (plain' : quote ∉ path') : path = path' := by
  have same := ((begins_iff word).mp h).2.2.symm.trans ((begins_iff word).mp h').2.2
  obtain ⟨rfl, same⟩ := List.cons.inj (Option.some.inj same)
  exact (Text.append_cons_inj plain plain' same).1

end Keywords

/-! ## Statements at the starts of lines -/

section Scans

variable {α : Type} {form : List Char → Option (α × List Char)} {reads : List Char → α → List Char → Prop} {a : α}

/-- Whether a line starts behind these characters; the first argument says so if there are none. -/
def startsLine (lineStart : Bool) (before : List Char) : Bool := before.getLast?.elim lineStart fun c => c = '\n'

theorem startsLine_cons (lineStart : Bool) (c : Char) (before : List Char) :
    startsLine lineStart (c :: before) = startsLine (c = '\n') before := by
  rw [startsLine, List.getLast?_cons, startsLine]
  cases before.getLast? <;> rfl

theorem startsLine_append (lineStart : Bool) (used : List Char) (c : Char) (before : List Char) :
    startsLine lineStart (used ++ c :: before) = startsLine (c = '\n') before := by
  induction used generalizing lineStart with
  | nil => exact startsLine_cons lineStart c before
  | cons d used ih => rw [List.cons_append, startsLine_cons, ih]

/-- Every statement that begins at an earlier start of a line ends in front of the one that starts here. -/
def IsFree (reads : List Char → α → List Char → Prop) (lineStart : Bool) (before now : List Char) : Prop :=
  ∀ outer inner b left, before = outer ++ inner → inner ≠ [] → startsLine lineStart outer = true →
    reads (inner ++ now) b left → now.length ≤ left.length

/-- A statement starts a line of the text, and no earlier one runs into it. What a statement says and what follows it is
told by `reads`. -/
def Stands (reads : List Char → α → List Char → Prop) (text : List Char) (a : α) : Prop :=
  ∃ before now rest, text = before ++ now ∧ startsLine true before = true ∧ reads now a rest ∧
    IsFree reads true before now

/-- The form reads these statements, and their last character is no newline. -/
structure ReadsInLine (form : List Char → Option (α × List Char)) (reads : List Char → α → List Char → Prop) :
    Prop where
  iff {cs : List Char} {a : α} {rest : List Char} : form cs = some (a, rest) ↔ reads cs a rest
  ends {cs : List Char} {a : α} {rest : List Char} (h : reads cs a rest) : ∃ used c, c ≠ '\n' ∧ cs = used ++ c :: rest

theorem readsInLine_named {keyword : String} (word : IsWord keyword) :
    ReadsInLine (named? keyword) (Names keyword) where
  iff := named?_eq_some_iff word
  ends := by
    rintro cs target rest ⟨opening, body, closing, ⟨indent, gap, -, -, -, -, closes, rfl⟩, -⟩
    refine ⟨indent ++ (keyword.toList ++ (gap ++ opening :: body)), closing, ?_, by simp⟩
    rintro rfl
    exact absurd closes (by decide)

theorem mem_all (h : ReadsInLine form reads) {fuel : Nat} {lineStart : Bool} {before now : List Char}
    (enough : (before ++ now).length < fuel) (starts : startsLine lineStart before = true)
    (here : reads now a rest) (free : IsFree reads lineStart before now) :
    a ∈ all true form fuel lineStart (before ++ now) := by
  induction fuel generalizing lineStart before with
  | zero => exact absurd enough (Nat.not_lt_zero _)
  | succ fuel ih =>
    cases before with
    | nil =>
      have first : lineStart = true := starts
      simp [all, first, h.iff.mpr here]
    | cons c before =>
      unfold all
      rw [Bool.not_true, Bool.or_false]
      split
      · -- The statement that is read here ends in front of the one that is looked for.
        rename_i b left read
        rw [Option.ite_none_right_eq_some] at read
        have earlier : reads (c :: before ++ now) b left := h.iff.mp read.2
        have behind : now.length ≤ left.length :=
          free [] (c :: before) b left rfl (List.cons_ne_nil c before) read.1 earlier
        obtain ⟨used, d, inLine, consumed⟩ := h.ends earlier
        obtain ⟨between, rfl⟩ : now <:+ left :=
          List.suffix_of_suffix_length_le ⟨c :: before, rfl⟩ ⟨used ++ [d], by simp [consumed]⟩ behind
        have cut : c :: before = used ++ d :: between :=
          List.append_cancel_right (by rw [consumed, List.append_assoc, List.cons_append])
        have goesOn (outer : List Char) : startsLine false outer = startsLine lineStart (used ++ d :: outer) := by
          rw [startsLine_append, decide_eq_false inLine]
        refine List.mem_cons_of_mem _ (ih ?_ ?_ ?_)
        · simp only [cut, List.length_append, List.length_cons] at enough ⊢
          omega
        · rw [goesOn, ← cut, starts]
        · intro outer inner b left split some_inner outer_starts
          refine free (used ++ d :: outer) inner b left ?_ some_inner ((goesOn outer).symm.trans outer_starts)
          rw [cut, split, List.append_assoc, List.cons_append]
      · refine ih (by simpa using enough) (startsLine_cons lineStart c before ▸ starts) ?_
        intro outer inner b left split some_inner outer_starts
        refine free (c :: outer) inner b left ?_ some_inner ((startsLine_cons lineStart c outer).trans outer_starts)
        rw [split, List.cons_append]

theorem Stands.mem_atLines {text : String} (stands : Stands reads text.toList a) (h : ReadsInLine form reads) :
    a ∈ atLines form text := by
  obtain ⟨before, now, rest, split, starts, here, free⟩ := stands
  rw [atLines, split]
  refine mem_all h ?_ starts here free
  rw [← split, String.length_toList]
  exact Nat.lt_succ_self _

/-- A line with no statement at its start is passed over. -/
theorem all_line {line : List Char} (newline : '\n' ∉ line) (fuel : Nat) (cs : List Char) :
    all true form (fuel + line.length + 1) false (line ++ '\n' :: cs) = all true form fuel true cs := by
  induction line with
  | nil => simp [all]
  | cons c line ih =>
    rw [List.mem_cons, not_or] at newline
    rw [List.length_cons, ← Nat.add_assoc, List.cons_append, all]
    simpa [Ne.symm newline.1] using ih newline.2

/-! ## The first statement -/

/-- What the first of the statements says that begin in a text, where more text follows it. -/
def firstIn (form : List Char → Option (α × List Char)) : List Char → List Char → Option α
  | [], _ => none
  | c :: cs, after => ((form (c :: cs ++ after)).map Prod.fst).or (firstIn form cs after)

theorem firstIn_append (cs ds after : List Char) :
    firstIn form (cs ++ ds) after = (firstIn form cs (ds ++ after)).or (firstIn form ds after) := by
  induction cs with
  | nil => rfl
  | cons c cs ih =>
    rw [List.cons_append, firstIn, firstIn, ih, Option.or_assoc, List.cons_append, List.append_assoc, List.cons_append]

theorem firstIn_eq_none_iff {after : List Char} :
    firstIn form cs after = none ↔ ∀ start, start ≠ [] → start <:+ cs → form (start ++ after) = none := by
  induction cs with
  | nil => exact iff_of_true rfl fun start some_start within => absurd (List.suffix_nil.mp within) some_start
  | cons c cs ih =>
    rw [firstIn, Option.or_eq_none_iff, ih, Option.map_eq_none_iff]
    constructor
    · rintro ⟨here, later⟩ start some_start within
      rcases List.suffix_cons_iff.mp within with rfl | within
      · exact here
      · exact later start some_start within
    · intro none_reads
      exact ⟨none_reads _ (List.cons_ne_nil c cs) (List.suffix_refl _),
        fun start some_start within => none_reads start some_start (within.trans (List.suffix_cons c cs))⟩

theorem head?_all_cons (fuel : Nat) (lineStart : Bool) (c : Char) (cs : List Char) :
    (all false form (fuel + 1) lineStart (c :: cs)).head? =
      ((form (c :: cs)).map Prod.fst).or (all false form fuel (c = '\n') cs).head? := by
  rw [all, Bool.not_false, Bool.or_true, if_pos rfl]
  cases form (c :: cs) <;> rfl

theorem head?_all_congr {fuel fuel' : Nat} (lineStart lineStart' : Bool) (enough : cs.length < fuel)
    (enough' : cs.length < fuel') :
    (all false form fuel lineStart cs).head? = (all false form fuel' lineStart' cs).head? := by
  induction cs generalizing fuel fuel' lineStart lineStart' with
  | nil =>
    obtain ⟨fuel, rfl⟩ := Nat.exists_eq_add_one_of_ne_zero (Nat.pos_iff_ne_zero.mp enough)
    obtain ⟨fuel', rfl⟩ := Nat.exists_eq_add_one_of_ne_zero (Nat.pos_iff_ne_zero.mp enough')
    rw [all, all]
    cases form [] <;> simp
  | cons c cs ih =>
    obtain ⟨fuel, rfl⟩ := Nat.exists_eq_add_one_of_ne_zero (Nat.ne_zero_of_lt enough)
    obtain ⟨fuel', rfl⟩ := Nat.exists_eq_add_one_of_ne_zero (Nat.ne_zero_of_lt enough')
    rw [head?_all_cons, head?_all_cons,
      ih _ _ (Nat.lt_of_succ_lt_succ enough) (Nat.lt_of_succ_lt_succ enough')]

/-- The first statement begins in the first part of a text, or else it is the first of the rest. -/
theorem first?_append (before after : String) :
    first? form (before ++ after) = (firstIn form before.toList after.toList).or (first? form after) := by
  have reads {fuel : Nat} (lineStart : Bool) (cs : List Char) (enough : (cs ++ after.toList).length < fuel) :
      (all false form fuel lineStart (cs ++ after.toList)).head? =
        (firstIn form cs after.toList).or (first? form after) := by
    induction cs generalizing fuel lineStart with
    | nil =>
      rw [firstIn, Option.none_or, first?]
      exact head?_all_congr lineStart true enough (String.length_toList ▸ Nat.lt_succ_self _)
    | cons c cs ih =>
      obtain ⟨fuel, rfl⟩ := Nat.exists_eq_add_one_of_ne_zero (Nat.ne_zero_of_lt enough)
      rw [List.cons_append, head?_all_cons, ih _ (Nat.lt_of_succ_lt_succ enough), firstIn, Option.or_assoc,
        List.cons_append]
  rw [first?, String.toList_append]
  exact reads true before.toList (by rw [← String.toList_append, String.length_toList]; exact Nat.lt_succ_self _)

end Scans

end WorkflowCatalog.Statement
