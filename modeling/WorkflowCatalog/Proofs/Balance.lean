import Mathlib.Data.List.Forall2
import Mathlib.Data.List.Infix
import Mathlib.Logic.Relation
import WorkflowCatalog.Descriptor.Braces

/-!
# When braces pair up

The check goes over the lines of a text and counts the braces that are open. It passes exactly the texts whose braces
in front of comments can be derived from the empty sequence by putting a pair around one balanced sequence and in front
of another. The line that it tells of is that of the first brace which closes more than was opened, and the number is
that of the braces which are left once pairs are struck out.
-/
namespace WorkflowCatalog

/-! ## Lines and comments -/

namespace Text

/-- The text is made of these lines. A newline ends a line, and so does a carriage return with a newline. What follows
the last of them is a line unless it is empty. -/
inductive IsLines : List Char → List (List Char) → Prop
  | nil : IsLines [] []
  | last {line : List Char} : line ≠ [] → '\n' ∉ line → IsLines line [line]
  | newline {line text : List Char} {lines : List (List Char)} : '\n' ∉ line → line.getLast? ≠ some '\r' →
      IsLines text lines → IsLines (line ++ '\n' :: text) (line :: lines)
  | carriage {line text : List Char} {lines : List (List Char)} : '\n' ∉ line →
      IsLines text lines → IsLines (line ++ '\r' :: '\n' :: text) (line :: lines)

theorem IsLines.eq_lines {text : List Char} {ls : List (List Char)} (h : IsLines text ls) : ls = lines text := by
  induction h with
  | nil => rfl
  | last some_line free => rw [lines_of_not_mem free, if_neg (by simpa using some_line)]
  | newline free plain _ ih => rw [lines_of_newline free, dropReturn_of_getLast? plain, ih]
  | @carriage line text ls free _ ih =>
    have free' : '\n' ∉ line ++ ['\r'] := by simp [free]
    have text_eq : line ++ '\r' :: '\n' :: text = (line ++ ['\r']) ++ '\n' :: text := by simp
    rw [text_eq, lines_of_newline free', dropReturn_append, ih]

theorem isLines_lines (text : List Char) : IsLines text (lines text) := by
  by_cases newline : '\n' ∈ text
  · obtain ⟨line, rest, rfl, free⟩ := List.eq_append_cons_of_mem newline
    have rest_lines := isLines_lines rest
    rw [lines_of_newline free]
    by_cases carriage : line.getLast? = some '\r'
    · obtain ⟨before, rfl⟩ := List.getLast?_eq_some_iff.mp carriage
      have free' : '\n' ∉ before := fun h => free (List.mem_append_left _ h)
      rw [dropReturn_append, List.append_assoc]
      exact .carriage free' rest_lines
    · rw [dropReturn_of_getLast? carriage]
      exact .newline free carriage rest_lines
  · rw [lines_of_not_mem newline]
    cases text with
    | nil => exact .nil
    | cons c cs => exact .last (List.cons_ne_nil c cs) newline
termination_by text.length

theorem isLines_iff {text : List Char} {ls : List (List Char)} : IsLines text ls ↔ ls = lines text :=
  ⟨IsLines.eq_lines, fun h => h ▸ isLines_lines text⟩

/-- What a line says in front of the first place where the mark stands, or all that it says if the mark is not there. -/
def IsBefore (mark line front : List Char) : Prop :=
  (∃ rest, line = front ++ (mark ++ rest) ∧
      ∀ other rest', line = other ++ (mark ++ rest') → front.length ≤ other.length) ∨
    ¬ mark <:+: line ∧ front = line

theorem IsBefore.unique {mark line front front' : List Char} (h : IsBefore mark line front)
    (h' : IsBefore mark line front') : front = front' := by
  rcases h with ⟨rest, cut, first⟩ | ⟨absent, rfl⟩ <;> rcases h' with ⟨rest', cut', first'⟩ | ⟨absent', rfl⟩
  · have same : front.length = front'.length := Nat.le_antisymm (first _ _ cut') (first' _ _ cut)
    exact (List.append_inj (cut.symm.trans cut') same).1
  · exact absurd ⟨front, rest, by simp [cut]⟩ absent'
  · exact absurd ⟨front', rest', by simp [cut']⟩ absent
  · rfl

theorem isBefore_untilMark (mark line : List Char) : IsBefore mark line (untilMark mark line) := by
  induction line with
  | nil =>
    cases mark with
    | nil => exact .inl ⟨[], rfl, fun _ _ _ => Nat.zero_le _⟩
    | cons m mark => exact .inr ⟨by simp, rfl⟩
  | cons c cs ih =>
    rw [untilMark]
    split
    · rename_i here
      obtain ⟨rest, cut⟩ := startsWith_iff.mp here
      exact .inl ⟨rest, cut.symm, fun _ _ _ => Nat.zero_le _⟩
    · rename_i not_here
      rw [startsWith_iff] at not_here
      rcases ih with ⟨rest, cut, first⟩ | ⟨absent, all⟩
      · refine .inl ⟨rest, congrArg (c :: ·) cut, fun other rest' cut' => ?_⟩
        cases other with
        | nil => exact absurd ⟨rest', cut'.symm⟩ not_here
        | cons d other => exact Nat.succ_le_succ (first other rest' (List.cons.inj cut').2)
      · refine .inr ⟨?_, congrArg (c :: ·) all⟩
        rw [List.infix_cons_iff]
        exact not_or.mpr ⟨not_here, absent⟩

theorem isBefore_iff {mark line front : List Char} : IsBefore mark line front ↔ front = untilMark mark line :=
  ⟨fun h => h.unique (isBefore_untilMark mark line), fun h => h ▸ isBefore_untilMark mark line⟩

end Text

namespace Braces

/-- What is left of the lines of a text when each is cut at its first comment mark. -/
def IsCodeOf (comment text : String) (codes : List (List Char)) : Prop :=
  ∃ lines, Text.IsLines text.toList lines ∧ List.Forall₂ (Text.IsBefore comment.toList) lines codes

theorem isCodeOf_iff {comment text : String} {codes : List (List Char)} :
    IsCodeOf comment text codes ↔ codes = codeLines comment text := by
  have cut (ls : List (List Char)) : List.Forall₂ (Text.IsBefore comment.toList) ls codes ↔
      codes = ls.map (Text.untilMark comment.toList) := by
    induction ls generalizing codes with
    | nil => rw [List.forall₂_nil_left_iff, List.map_nil]
    | cons l ls ih =>
      rw [List.forall₂_cons_left_iff, List.map_cons]
      constructor
      · rintro ⟨code, codes, first, others, rfl⟩
        rw [Text.isBefore_iff.mp first, ih.mp others]
      · rintro rfl
        exact ⟨_, _, Text.isBefore_iff.mpr rfl, ih.mpr rfl, rfl⟩
  simp only [IsCodeOf, Text.isLines_iff, cut, exists_eq_left]
  rfl

/-! ## Counting -/

def isBrace (c : Char) : Bool := c = '{' || c = '}'

theorem isBrace_iff {c : Char} : isBrace c = true ↔ c = '{' ∨ c = '}' := by
  simp [isBrace]

/-- The braces of a text. -/
def braces (cs : List Char) : List Char := cs.filter isBrace

/-- Up to here no brace closes more than was opened, and one that comes next does. -/
structure BeforeExcess (cs : List Char) : Prop where
  bounded : ∀ p, p <+: cs → p.count '}' ≤ p.count '{'
  next : (cs ++ ['}']).count '{' < (cs ++ ['}']).count '}'

theorem openAfter_opening (depth : Nat) (cs : List Char) : openAfter depth ('{' :: cs) = openAfter (depth + 1) cs := rfl

theorem openAfter_closing (depth : Nat) (cs : List Char) : openAfter (depth + 1) ('}' :: cs) = openAfter depth cs := rfl

theorem openAfter_closing_zero (cs : List Char) : openAfter 0 ('}' :: cs) = none := rfl

theorem openAfter_other {c : Char} (opens : c ≠ '{') (closes : c ≠ '}') (depth : Nat) (cs : List Char) :
    openAfter depth (c :: cs) = openAfter depth cs := by
  simp only [openAfter, opens, closes, if_false]

/-- Only braces count. -/
theorem openAfter_braces (depth : Nat) (cs : List Char) : openAfter depth (braces cs) = openAfter depth cs := by
  induction cs generalizing depth with
  | nil => rfl
  | cons c cs ih =>
    by_cases opens : c = '{'
    · subst opens
      exact ih (depth + 1)
    by_cases closes : c = '}'
    · subst closes
      cases depth with
      | zero => rfl
      | succ depth => exact ih depth
    · have skipped : braces (c :: cs) = braces cs := List.filter_cons_of_neg (by simp [isBrace_iff, opens, closes])
      rw [skipped, ih, openAfter_other opens closes]

/-- What is left open is what was opened less what was closed, as long as there is never more of the latter. -/
theorem openAfter_eq_some_iff {depth left : Nat} {cs : List Char} : openAfter depth cs = some left ↔
    (∀ p, p <+: cs → p.count '}' ≤ depth + p.count '{') ∧ left + cs.count '}' = depth + cs.count '{' := by
  induction cs generalizing depth with
  | nil => simp [eq_comm]
  | cons c cs ih =>
    have prefixes : (∀ p, p <+: c :: cs → p.count '}' ≤ depth + p.count '{') ↔
        ∀ p, p <+: cs → (c :: p).count '}' ≤ depth + (c :: p).count '{' := by
      simp only [List.prefix_cons_iff]
      constructor
      · intro h p hp
        exact h (c :: p) (.inr ⟨p, rfl, hp⟩)
      · rintro h _ (rfl | ⟨p, rfl, hp⟩)
        · simp
        · exact h p hp
    rw [prefixes]
    by_cases opens : c = '{'
    · subst opens
      rw [openAfter_opening, ih]
      simp only [List.count_cons_self, List.count_cons_of_ne (show '{' ≠ '}' by decide)]
      grind
    by_cases closes : c = '}'
    · subst closes
      simp only [List.count_cons_self, List.count_cons_of_ne (show '}' ≠ '{' by decide)]
      cases depth with
      | zero =>
        refine iff_of_false (by simp [openAfter_closing_zero]) fun h => ?_
        have first := h.1 [] List.nil_prefix
        simp at first
      | succ depth =>
        rw [openAfter_closing, ih]
        grind
    · rw [openAfter_other opens closes, ih]
      simp only [List.count_cons_of_ne opens, List.count_cons_of_ne closes]

theorem openAfter_eq_none_iff {depth : Nat} {cs : List Char} : openAfter depth cs = none ↔
    ∃ before after, cs = before ++ '}' :: after ∧ openAfter depth before = some 0 := by
  constructor
  · intro excess
    induction cs generalizing depth with
    | nil => exact nomatch excess
    | cons c cs ih =>
      by_cases opens : c = '{'
      · subst opens
        obtain ⟨before, after, rfl, level⟩ := ih excess
        exact ⟨'{' :: before, after, rfl, level⟩
      by_cases closes : c = '}'
      · subst closes
        cases depth with
        | zero => exact ⟨[], cs, rfl, rfl⟩
        | succ depth =>
          obtain ⟨before, after, rfl, level⟩ := ih excess
          exact ⟨'}' :: before, after, rfl, level⟩
      · rw [openAfter_other opens closes] at excess
        obtain ⟨before, after, rfl, level⟩ := ih excess
        exact ⟨c :: before, after, rfl, (openAfter_other opens closes depth before).trans level⟩
  · rintro ⟨before, after, rfl, level⟩
    rw [openAfter_append, level]
    rfl

theorem beforeExcess_iff {cs : List Char} : BeforeExcess cs ↔ openAfter 0 cs = some 0 := by
  have counts : (cs ++ ['}']).count '{' = cs.count '{' ∧ (cs ++ ['}']).count '}' = cs.count '}' + 1 := by simp
  rw [openAfter_eq_some_iff]
  constructor
  · rintro ⟨bounded, next⟩
    have whole := bounded cs List.prefix_rfl
    refine ⟨fun p hp => ?_, ?_⟩
    · have := bounded p hp
      omega
    · omega
  · rintro ⟨never, level⟩
    refine ⟨fun p hp => ?_, ?_⟩
    · have := never p hp
      omega
    · omega

/-! ## The lines of a text -/

/-- Lines that pass leave nothing open. -/
theorem checkLines_eq_ok_iff {depth number : Nat} {ls : List (List Char)} :
    checkLines depth number ls = .ok () ↔ openAfter depth ls.flatten = some 0 := by
  induction ls generalizing depth number with
  | nil => simp [checkLines]
  | cons l ls ih =>
    rw [List.flatten_cons, openAfter_append, checkLines]
    cases openAfter depth l with
    | none => simp
    | some d => exact ih

theorem checkLines_eq_unclosed_iff {depth number n : Nat} {ls : List (List Char)} :
    checkLines depth number ls = .error (.unclosed n) ↔ 0 < n ∧ openAfter depth ls.flatten = some n := by
  induction ls generalizing depth number with
  | nil =>
    cases depth with
    | zero =>
      refine iff_of_false (by simp [checkLines]) ?_
      rintro ⟨positive, level⟩
      obtain rfl : 0 = n := Option.some.inj level
      exact Nat.lt_irrefl 0 positive
    | succ depth =>
      simp only [checkLines, List.flatten_nil, openAfter_nil, Option.some.injEq]
      constructor
      · rintro ⟨⟩
        exact ⟨Nat.succ_pos depth, rfl⟩
      · rintro ⟨-, rfl⟩
        rfl
  | cons l ls ih =>
    rw [List.flatten_cons, openAfter_append, checkLines]
    cases openAfter depth l with
    | none => simp
    | some d => exact ih

/-- The line that is told of is the one with the first brace that closes too much. -/
theorem checkLines_eq_unexpected_iff {depth number n : Nat} {ls : List (List Char)} :
    checkLines depth number ls = .error (.unexpected n) ↔ ∃ above before after below,
      ls = above ++ (before ++ '}' :: after) :: below ∧ n = number + above.length ∧
        openAfter depth (above.flatten ++ before) = some 0 := by
  induction ls generalizing depth number with
  | nil =>
    refine iff_of_false ?_ ?_
    · cases depth <;> simp [checkLines]
    · rintro ⟨above, before, after, below, none_there, -⟩
      simp at none_there
  | cons l ls ih =>
    rw [checkLines]
    cases passed : openAfter depth l with
    | none =>
      constructor
      · rintro ⟨⟩
        obtain ⟨before, after, rfl, level⟩ := openAfter_eq_none_iff.mp passed
        exact ⟨[], before, after, ls, rfl, rfl, level⟩
      · rintro ⟨above, before, after, below, lines, rfl, level⟩
        cases above with
        | nil => rfl
        | cons a above =>
          obtain ⟨rfl, rfl⟩ := List.cons.inj lines
          rw [List.flatten_cons, List.append_assoc, openAfter_append, passed] at level
          exact nomatch level
    | some d =>
      refine ih.trans ⟨?_, ?_⟩
      · rintro ⟨above, before, after, below, rfl, rfl, level⟩
        refine ⟨l :: above, before, after, below, rfl, ?_, ?_⟩
        · rw [List.length_cons]
          omega
        · rw [List.flatten_cons, List.append_assoc, openAfter_append, passed]
          exact level
      · rintro ⟨above, before, after, below, lines, rfl, level⟩
        cases above with
        | nil =>
          obtain ⟨rfl, rfl⟩ := List.cons.inj lines
          have excess := openAfter_eq_none_iff.mpr ⟨before, after, rfl, level⟩
          exact nomatch passed.symm.trans excess
        | cons a above =>
          obtain ⟨rfl, rfl⟩ := List.cons.inj lines
          rw [List.flatten_cons, List.append_assoc, openAfter_append, passed] at level
          refine ⟨above, before, after, below, rfl, ?_, level⟩
          rw [List.length_cons]
          omega

/-! ## The grammar -/

/-- Balanced sequences of braces: the empty one, and a pair around one of them in front of another. -/
inductive Balanced : List Char → Prop
  | nil : Balanced []
  | pair {inner after : List Char} : Balanced inner → Balanced after → Balanced ('{' :: (inner ++ '}' :: after))

theorem Balanced.openAfter_eq {bs : List Char} (h : Balanced bs) (depth : Nat) : Braces.openAfter depth bs = some depth := by
  induction h generalizing depth with
  | nil => rfl
  | pair _ _ inner after =>
    rw [openAfter_opening, openAfter_append, inner]
    exact after depth

/-- So many closing braces with balanced sequences around them. -/
def Closes : Nat → List Char → Prop
  | 0, bs => Balanced bs
  | depth + 1, bs => ∃ inner rest, bs = inner ++ '}' :: rest ∧ Balanced inner ∧ Closes depth rest

/-- An opening brace goes with the first closing brace that is left over. -/
theorem Closes.opening {depth : Nat} {bs : List Char} (h : Closes (depth + 1) bs) : Closes depth ('{' :: bs) := by
  obtain ⟨inner, rest, rfl, balanced, closes⟩ := h
  cases depth with
  | zero => exact .pair balanced closes
  | succ depth =>
    obtain ⟨next, rest, rfl, balanced', closes⟩ := closes
    exact ⟨'{' :: (inner ++ '}' :: next), rest, by simp, .pair balanced balanced', closes⟩

theorem closes_of_openAfter {depth : Nat} {bs : List Char} (only : ∀ c ∈ bs, isBrace c = true)
    (h : openAfter depth bs = some 0) : Closes depth bs := by
  induction bs generalizing depth with
  | nil =>
    obtain rfl : depth = 0 := Option.some.inj h
    exact .nil
  | cons c bs ih =>
    rw [List.forall_mem_cons] at only
    rcases isBrace_iff.mp only.1 with rfl | rfl
    · exact (ih only.2 h).opening
    · cases depth with
      | zero => exact nomatch h
      | succ depth => exact ⟨[], bs, rfl, .nil, ih only.2 h⟩

theorem balanced_iff {bs : List Char} (only : ∀ c ∈ bs, isBrace c = true) : Balanced bs ↔ openAfter 0 bs = some 0 :=
  ⟨fun h => h.openAfter_eq 0, closes_of_openAfter only⟩

/-! ## Striking out pairs -/

/-- An opening brace and a closing one right behind it are struck out. -/
inductive Cancels : List Char → List Char → Prop
  | pair (before after : List Char) : Cancels (before ++ '{' :: '}' :: after) (before ++ after)

theorem Cancels.openAfter_eq {bs cs : List Char} (h : Cancels bs cs) (depth : Nat) :
    openAfter depth bs = openAfter depth cs := by
  obtain ⟨before, after⟩ := h
  rw [openAfter_append, openAfter_append]
  rfl

theorem openAfter_replicate (depth n : Nat) : openAfter depth (List.replicate n '{') = some (depth + n) := by
  induction n generalizing depth with
  | zero => rfl
  | succ n ih =>
    rw [List.replicate_succ, openAfter_opening, ih]
    congr 1
    omega

/-- With as many opening braces in front as are open, pairs can be struck out until only opening braces are left. -/
theorem cancels_of_openAfter {depth n : Nat} {bs : List Char} (only : ∀ c ∈ bs, isBrace c = true)
    (h : openAfter depth bs = some n) :
    Relation.ReflTransGen Cancels (List.replicate depth '{' ++ bs) (List.replicate n '{') := by
  induction bs generalizing depth with
  | nil =>
    obtain rfl : depth = n := Option.some.inj h
    rw [List.append_nil]
  | cons c bs ih =>
    rw [List.forall_mem_cons] at only
    rcases isBrace_iff.mp only.1 with rfl | rfl
    · have moved := ih only.2 h
      rwa [List.replicate_succ', List.append_assoc] at moved
    · cases depth with
      | zero => exact nomatch h
      | succ depth =>
        refine .head ?_ (ih only.2 h)
        rw [List.replicate_succ', List.append_assoc]
        exact .pair _ bs

theorem openAfter_of_cancels {bs cs : List Char} (h : Relation.ReflTransGen Cancels bs cs) (depth : Nat) :
    openAfter depth bs = openAfter depth cs := by
  induction h with
  | refl => rfl
  | tail _ step ih => exact ih.trans (step.openAfter_eq depth)

theorem cancels_iff {n : Nat} {bs : List Char} (only : ∀ c ∈ bs, isBrace c = true) :
    Relation.ReflTransGen Cancels bs (List.replicate n '{') ↔ openAfter 0 bs = some n := by
  constructor
  · intro struck
    rw [openAfter_of_cancels struck, openAfter_replicate, Nat.zero_add]
  · exact fun h => cancels_of_openAfter only h

theorem isBrace_of_mem_braces {cs : List Char} : ∀ c ∈ braces cs, isBrace c = true := fun _ hc =>
  (List.mem_filter.mp hc).2

/-! ## The check -/

/-- The check passes a text if and only if the braces in it, comments left out, are balanced. Otherwise there either is
a first brace that closes more than was opened, and its line is told, or opening braces are left when all pairs have
been struck out, and their number is told. -/
theorem check_decides_balance (comment text : String) :
    ∃ codes, (∀ others, IsCodeOf comment text others ↔ others = codes) ∧
      (check comment text = .ok () ↔ Balanced (braces codes.flatten)) ∧
      (∀ n, check comment text = .error (.unexpected n) ↔ ∃ above before after below,
        codes = above ++ (before ++ '}' :: after) :: below ∧ n = above.length + 1 ∧
          BeforeExcess (above.flatten ++ before)) ∧
      ∀ n, check comment text = .error (.unclosed n) ↔
        0 < n ∧ Relation.ReflTransGen Cancels (braces codes.flatten) (List.replicate n '{') := by
  refine ⟨codeLines comment text, fun _ => isCodeOf_iff, ?_, fun n => ?_, fun n => ?_⟩
  · rw [balanced_iff isBrace_of_mem_braces, openAfter_braces]
    exact checkLines_eq_ok_iff
  · simp only [beforeExcess_iff, Nat.add_comm _ 1]
    exact checkLines_eq_unexpected_iff
  · rw [cancels_iff isBrace_of_mem_braces, openAfter_braces]
    exact checkLines_eq_unclosed_iff

example : check "#" "a \x7b # \x7d\r\n\x7d\n\x7d\x7b" = .error (.unexpected 3) := by rfl

end Braces

end WorkflowCatalog
