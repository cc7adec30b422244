import WorkflowCatalog.Text.Digit

/-!
# Pieces of text

Cutting a list of characters at a separator, into lines, and at its blank ends. Blank means the
Unicode property White_Space.
-/
namespace WorkflowCatalog.Text

/-- The pieces between the occurrences of `sep`; there is always at least one. -/
def splitOn (sep : Char) : List Char → List (List Char)
  | [] => [[]]
  | c :: cs =>
    if c = sep then [] :: splitOn sep cs
    else match splitOn sep cs with
      | [] => [[c]]
      | piece :: pieces => (c :: piece) :: pieces

@[simp] theorem splitOn_nil (sep : Char) : splitOn sep [] = [[]] := rfl

theorem splitOn_ne_nil (sep : Char) (cs : List Char) : splitOn sep cs ≠ [] := by
  cases cs with
  | nil => simp
  | cons c cs =>
    by_cases h : c = sep
    · simp [splitOn, h]
    · simp only [splitOn, h, if_false]
      split <;> simp

theorem not_mem_of_mem_splitOn {sep : Char} {cs piece : List Char} (h : piece ∈ splitOn sep cs) : sep ∉ piece := by
  induction cs generalizing piece with
  | nil => simp_all
  | cons c cs ih =>
    by_cases hc : c = sep
    · simp only [splitOn, hc, if_true, List.mem_cons] at h
      rcases h with rfl | h
      · simp
      · exact ih h
    · simp only [splitOn, hc, if_false] at h
      cases hs : splitOn sep cs with
      | nil => exact absurd hs (splitOn_ne_nil sep cs)
      | cons first pieces =>
        simp only [hs, List.mem_cons] at h ih
        rcases h with rfl | h
        · exact List.not_mem_cons_of_ne_of_not_mem (Ne.symm hc) (ih (.inl rfl))
        · exact ih (.inr h)

/-- The pieces with the separator between them make up the text again. -/
theorem intercalate_splitOn (sep : Char) (cs : List Char) : [sep].intercalate (splitOn sep cs) = cs := by
  induction cs with
  | nil => rfl
  | cons c cs ih =>
    cases hs : splitOn sep cs with
    | nil => exact absurd hs (splitOn_ne_nil sep cs)
    | cons first pieces =>
      rw [hs] at ih
      by_cases hc : c = sep
      · simpa [splitOn, hc, hs, List.intercalate] using ih
      · simp only [splitOn, hc, if_false, hs]
        cases pieces <;> simpa [List.intercalate] using ih

theorem splitOn_of_not_mem {sep : Char} {cs : List Char} (h : sep ∉ cs) : splitOn sep cs = [cs] := by
  induction cs with
  | nil => rfl
  | cons c cs ih =>
    rw [List.mem_cons, not_or] at h
    simp only [splitOn, Ne.symm h.1, if_false, ih h.2]

theorem splitOn_append (sep : Char) (cs rest : List Char) :
    splitOn sep (cs ++ sep :: rest) = splitOn sep cs ++ splitOn sep rest := by
  induction cs with
  | nil => simp [splitOn]
  | cons c cs ih =>
    by_cases h : c = sep
    · simp [splitOn, h, ih]
    · cases pieces : splitOn sep cs with
      | nil => exact absurd pieces (splitOn_ne_nil sep cs)
      | cons piece others => simp [splitOn, h, ih, pieces]

theorem splitOn_append_cons {sep : Char} {cs : List Char} (h : sep ∉ cs) (rest : List Char) :
    splitOn sep (cs ++ sep :: rest) = cs :: splitOn sep rest := by
  rw [splitOn_append, splitOn_of_not_mem h]
  rfl

/-- Pieces that are put after a separator each are found again. -/
theorem splitOn_flatMap {sep : Char} {pieces : List (List Char)} (h : ∀ piece ∈ pieces, sep ∉ piece) :
    splitOn sep (pieces.flatMap (sep :: ·)) = [] :: pieces := by
  cases pieces with
  | nil => rfl
  | cons piece pieces =>
    rw [List.forall_mem_cons] at h
    rw [List.flatMap_cons, List.cons_append, splitOn, if_pos rfl]
    congr 1
    induction pieces generalizing piece with
    | nil => simpa using splitOn_of_not_mem h.1
    | cons next pieces ih =>
      rw [List.flatMap_cons, List.cons_append, splitOn_append_cons h.1, ih next (List.forall_mem_cons.mp h.2)]

/-- Everything before the first occurrence of `sep`, and what follows it if there is one. -/
def cutAt (sep : Char) : List Char → List Char × Option (List Char)
  | [] => ([], none)
  | c :: cs => if c = sep then ([], some cs) else ((c :: (cutAt sep cs).1), (cutAt sep cs).2)

/-- The rest of `text` after `mark`, if `text` starts with it. -/
def dropMark? : List Char → List Char → Option (List Char)
  | [], text => some text
  | _ :: _, [] => none
  | m :: mark, c :: text => if m = c then dropMark? mark text else none

theorem dropMark?_append (mark text : List Char) : dropMark? mark (mark ++ text) = some text := by
  induction mark with
  | nil => rfl
  | cons m mark ih => rw [List.cons_append, dropMark?, if_pos rfl, ih]

theorem dropMark?_eq_some_iff {mark text rest : List Char} : dropMark? mark text = some rest ↔ text = mark ++ rest := by
  refine ⟨fun read => ?_, fun same => same ▸ dropMark?_append mark rest⟩
  induction mark generalizing text with
  | nil => exact Option.some.inj read
  | cons m mark ih =>
    cases text with
    | nil => exact nomatch read
    | cons c text =>
      rw [dropMark?, Option.ite_none_right_eq_some] at read
      obtain ⟨rfl, read⟩ := read
      rw [ih read, List.cons_append]

def startsWith (mark text : List Char) : Bool := (dropMark? mark text).isSome

theorem startsWith_iff {mark text : List Char} : startsWith mark text = true ↔ mark <+: text := by
  rw [startsWith, Option.isSome_iff_exists]
  exact exists_congr fun rest => dropMark?_eq_some_iff.trans eq_comm

def endsWith (mark text : List Char) : Bool := startsWith mark.reverse text.reverse

/-- `text` up to the first occurrence of `mark`. -/
def untilMark (mark : List Char) : List Char → List Char
  | [] => []
  | c :: cs => if startsWith mark (c :: cs) then [] else c :: untilMark mark cs

/-- One carriage return at the end is dropped. -/
def dropReturn (line : List Char) : List Char :=
  match line.reverse with
  | '\r' :: before => before.reverse
  | _ => line

theorem dropReturn_append (line : List Char) : dropReturn (line ++ ['\r']) = line := by
  simp [dropReturn]

theorem dropReturn_of_getLast? {line : List Char} (h : line.getLast? ≠ some '\r') : dropReturn line = line := by
  unfold dropReturn
  split
  · rename_i before reversed
    rw [← List.head?_reverse, reversed] at h
    exact absurd rfl h
  · rfl

/-- Lines end at a newline, or at a carriage return and a newline; nothing after the last is no line. -/
def lines (text : List Char) : List (List Char) :=
  match (splitOn '\n' text).reverse with
  | [] => []
  | last :: before => before.reverse.map dropReturn ++ (if last.isEmpty then [] else [last])

theorem lines_eq {text last : List Char} {before : List (List Char)} (h : splitOn '\n' text = before ++ [last]) :
    lines text = before.map dropReturn ++ (if last.isEmpty then [] else [last]) := by
  simp [lines, h]

theorem lines_nil : lines [] = [] := rfl

/-- The lines of a text that is ended by a newline are its pieces, and those of what follows come after them. -/
theorem lines_append_newline (cs rest : List Char) :
    lines (cs ++ '\n' :: rest) = (splitOn '\n' cs).map dropReturn ++ lines rest := by
  have pieces : splitOn '\n' rest = (splitOn '\n' rest).dropLast ++ [(splitOn '\n' rest).getLast (splitOn_ne_nil _ _)] :=
    (List.dropLast_concat_getLast _).symm
  have all : splitOn '\n' (cs ++ '\n' :: rest) = (splitOn '\n' cs ++ (splitOn '\n' rest).dropLast) ++
      [(splitOn '\n' rest).getLast (splitOn_ne_nil _ _)] := by
    rw [splitOn_append, List.append_assoc, ← pieces]
  rw [lines_eq all, lines_eq pieces, List.map_append, List.append_assoc]

/-- The first line of a text that has a newline. -/
theorem lines_of_newline {line : List Char} (h : '\n' ∉ line) (text : List Char) :
    lines (line ++ '\n' :: text) = dropReturn line :: lines text := by
  rw [lines_append_newline, splitOn_of_not_mem h]
  rfl

theorem lines_of_not_mem {line : List Char} (h : '\n' ∉ line) : lines line = if line.isEmpty then [] else [line] := by
  have pieces : splitOn '\n' line = [] ++ [line] := splitOn_of_not_mem h
  rw [lines_eq pieces]
  rfl

def isBlank (c : Char) : Bool :=
  let n := c.toNat
  (9 ≤ n && n ≤ 13) || n = 0x20 || n = 0x85 || n = 0xA0 || n = 0x1680 ||
    (0x2000 ≤ n && n ≤ 0x200A) || n = 0x2028 || n = 0x2029 || n = 0x202F || n = 0x205F || n = 0x3000

def trimEnd (text : List Char) : List Char := (text.reverse.dropWhile isBlank).reverse

def trim (text : List Char) : List Char := trimEnd (text.dropWhile isBlank)

/-- The letters `A` to `Z` and `a` to `z` of ASCII. -/
def isLetter (c : Char) : Bool := ('a' ≤ c && c ≤ 'z') || ('A' ≤ c && c ≤ 'Z')

/-- Equality up to the case of ASCII letters. -/
def equalsIgnoringCase (a b : String) : Bool := a.toList.map Char.toLower == b.toList.map Char.toLower

def lowercase (s : String) : String := String.ofList (s.toList.map Char.toLower)

def uppercase (s : String) : String := String.ofList (s.toList.map Char.toUpper)

end WorkflowCatalog.Text
