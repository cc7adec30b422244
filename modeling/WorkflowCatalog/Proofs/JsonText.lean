import WorkflowCatalog.Json.Printer
import WorkflowCatalog.Json.Reader

/-!
# Reading what was written

A value of texts, truth values, lists and records is read back from what is written of it, in any layout that puts
nothing but white space between its parts. What follows the value is left. A list or record is longer than each of its
parts, so a reader goes deep enough if it goes as deep as the text is long.
-/
namespace WorkflowCatalog.Json

/-! ## Strings -/

/-- The piece stands for a character, whatever comes after it. -/
def Piece.StandsFor (p : Piece) (c : Char) : Prop := ∀ ps, joinPieces (p :: ps) = (joinPieces ps).map (c :: ·)

theorem Piece.char_standsFor (c : Char) : (char c).StandsFor c := fun _ => rfl

theorem Piece.unit_standsFor {c : Char} (h : c.toNat < 0x20) : (unit c.toNat).StandsFor c := fun ps => by
  have high : isHigh c.toNat = false := by
    rw [isHigh, Bool.and_eq_false_iff]
    exact .inl (decide_eq_false (by omega))
  have low : isLow c.toNat = false := by
    rw [isLow, Bool.and_eq_false_iff]
    exact .inl (decide_eq_false (by omega))
  rw [joinPieces.eq_def]
  simp [high, low]

theorem digitValue?_hexDigit {n : Nat} (h : n < 16) : Text.digitValue? 16 (Text.hexDigit n) = some n := by
  rw [Text.digitValue?, Text.hexValue?_hexDigit h]
  exact Option.filter_some_pos (decide_eq_true h)

theorem natural?_control {n : Nat} (h : n < 0x20) :
    Text.natural? 16 ['0', '0', Text.hexDigit (n / 16), Text.hexDigit (n % 16)] = some n := by
  have zero : Text.digitValue? 16 '0' = some 0 := rfl
  have high : Text.digitValue? 16 (Text.hexDigit (n / 16)) = some (n / 16) := digitValue?_hexDigit (by omega)
  have low : Text.digitValue? 16 (Text.hexDigit (n % 16)) = some (n % 16) := digitValue?_hexDigit (by omega)
  simp only [Text.natural?, List.isEmpty_cons, List.foldlM_cons, List.foldlM_nil, zero, high, low, Option.map_some]
  exact congrArg some (by omega)

theorem pieces_short {e c : Char} (h : shortEscape? e = some c) (cs : List Char) :
    pieces ('\\' :: e :: cs) = (pieces cs).map fun r => (.char c :: r.1, r.2) := by
  have other : e ≠ 'u' := by
    rintro rfl
    exact nomatch h
  rw [pieces.eq_4 e cs fun _ _ _ _ _ unit => absurd unit other, h]
  cases pieces cs <;> rfl

theorem pieces_unit {a b c d : Char} {n : Nat} (h : Text.natural? 16 [a, b, c, d] = some n) (cs : List Char) :
    pieces ('\\' :: 'u' :: a :: b :: c :: d :: cs) = (pieces cs).map fun r => (.unit n :: r.1, r.2) := by
  rw [pieces.eq_3, h]
  cases pieces cs <;> rfl

theorem pieces_plain {c : Char} (quote : c ≠ '"') (backslash : c ≠ '\\') (h : ¬ c.toNat < 0x20) (cs : List Char) :
    pieces (c :: cs) = (pieces cs).map fun r => (.char c :: r.1, r.2) := by
  rw [pieces.eq_5 c cs quote (fun _ _ _ _ _ e => absurd e backslash) (fun _ _ e => absurd e backslash),
    if_neg (by simp [h, backslash])]
  cases pieces cs <;> rfl

/-- A character comes back from what is written for it. -/
theorem pieces_escape (c : Char) : ∃ p : Piece, p.StandsFor c ∧
    ∀ cs, pieces (escape c ++ cs) = (pieces cs).map fun r => (p :: r.1, r.2) := by
  unfold escape
  split
  case h_8 quote backslash _ _ _ _ _ =>
    split
    · rename_i control
      exact ⟨.unit c.toNat, Piece.unit_standsFor control, pieces_unit (natural?_control control)⟩
    · rename_i printable
      exact ⟨.char c, Piece.char_standsFor c, pieces_plain quote backslash printable⟩
  all_goals exact ⟨.char _, Piece.char_standsFor _, pieces_short rfl⟩

theorem pieces_escaped (s rest : List Char) :
    ∃ ps, pieces (s.flatMap escape ++ '"' :: rest) = some (ps, rest) ∧ joinPieces ps = some s := by
  induction s with
  | nil => exact ⟨[], rfl, rfl⟩
  | cons c s ih =>
    obtain ⟨p, stands, step⟩ := pieces_escape c
    obtain ⟨ps, read, joined⟩ := ih
    refine ⟨p :: ps, ?_, ?_⟩
    · rw [List.flatMap_cons, List.append_assoc, step, read]
      rfl
    · rw [stands, joined]
      rfl

/-- A string comes back from its quotation, after the quote that opens it. -/
theorem string?_quoted (s : String) (rest : List Char) :
    ∃ body, quoted s ++ rest = '"' :: body ∧ string? body = some (some s, rest) := by
  obtain ⟨ps, read, joined⟩ := pieces_escaped s.toList rest
  refine ⟨s.toList.flatMap escape ++ '"' :: rest, ?_, ?_⟩
  · simp [quoted]
  · rw [string?, read]
    simp [joined]

/-! ## Parts with white space between them -/

theorem skipSpace_append {gap : List Char} (blank : ∀ c ∈ gap, isSpace c = true) (cs : List Char) :
    skipSpace (gap ++ cs) = skipSpace cs :=
  List.dropWhile_append_of_pos blank

theorem skipSpace_cons {c : Char} (h : isSpace c = false) (cs : List Char) : skipSpace (c :: cs) = c :: cs :=
  List.dropWhile_cons_of_neg (by simp [h])

/-- The text starts with a character that is neither white space nor the end of a list. -/
def Opens (cs : List Char) : Prop := ∃ c rest, cs = c :: rest ∧ isSpace c = false ∧ c ≠ ']' ∧ c ≠ '}'

theorem Opens.append {cs : List Char} (h : Opens cs) (rest : List Char) : Opens (cs ++ rest) := by
  obtain ⟨c, cs, rfl, marks⟩ := h
  exact ⟨c, cs ++ rest, List.cons_append, marks⟩

theorem Opens.skipSpace_append {cs : List Char} (h : Opens cs) (rest : List Char) :
    skipSpace (cs ++ rest) = cs ++ rest := by
  obtain ⟨c, cs, rfl, space, -⟩ := h
  exact skipSpace_cons space _

/-- The texts of several values, with a comma and white space after each but the last. -/
def joined {α : Type} (gap : List Char) (text : α → List Char) (a : α) (as : List α) : List Char :=
  text a ++ as.flatMap fun b => ',' :: (gap ++ text b)

section Parts

variable {α : Type} {gap : List Char} {text : α → List Char} {a : α} {as : List α}

theorem joined_cons (b : α) : joined gap text a (b :: as) = text a ++ ',' :: (gap ++ joined gap text b as) := by
  simp [joined]

theorem length_le_joined (gap : List Char) (text : α → List Char) {a b : α} {as : List α} (hb : b ∈ a :: as) :
    (text b).length ≤ (joined gap text a as).length := by
  induction as generalizing a with
  | nil =>
    obtain rfl := List.mem_singleton.mp hb
    simp [joined]
  | cons c cs ih =>
    rw [joined_cons]
    obtain rfl | hb := List.mem_cons.mp hb
    · simp
    · have rest := ih hb
      simp only [List.length_append, List.length_cons]
      omega

theorem length_lt_joined (gap : List Char) (as : List α) (opens : Opens (text a)) :
    as.length < (joined gap text a as).length := by
  obtain ⟨c, cs, first, -⟩ := opens
  have others : as.length ≤ (as.flatMap fun b => ',' :: (gap ++ text b)).length := by
    clear first
    induction as with
    | nil => exact Nat.le_refl 0
    | cons b bs ih =>
      rw [List.flatMap_cons, List.length_append, List.length_cons, List.length_cons]
      omega
  rw [joined, first, List.length_append, List.length_cons]
  omega

variable {item : List Char → Option (α × List Char)} {close : Char} {last : List Char}
  (blank : ∀ c ∈ gap, isSpace c = true) (ends : ∀ c ∈ last, isSpace c = true) (closes : close = ']' ∨ close = '}')
include blank ends closes

/-- Values are read one after the other if each of them is read from its text. -/
theorem sequence_joined (opens : ∀ b ∈ a :: as, Opens (text b))
    (reads : ∀ b ∈ a :: as, ∀ rest, item (text b ++ rest) = some (b, rest)) {fuel : Nat} (enough : as.length < fuel)
    {before : List Char} (first : ∀ c ∈ before, isSpace c = true) (rest : List Char) :
    sequence item close fuel (before ++ (joined gap text a as ++ (last ++ close :: rest))) = some (a :: as, rest) := by
  have mark : isSpace close = false ∧ close ≠ ',' := by obtain rfl | rfl := closes <;> decide
  obtain ⟨fuel, rfl⟩ : ∃ n, fuel = n + 1 := ⟨fuel - 1, by omega⟩
  induction as generalizing a fuel before with
  | nil =>
    rw [List.forall_mem_singleton] at opens reads
    rw [joined, List.flatMap_nil, List.append_nil, sequence, Json.skipSpace_append first, opens.skipSpace_append, reads]
    simp [Json.skipSpace_append ends, skipSpace_cons mark.1, mark.2]
  | cons b bs ih =>
    rw [List.forall_mem_cons] at opens reads
    obtain ⟨fuel, rfl⟩ : ∃ n, fuel = n + 1 := ⟨fuel - 1, by rw [List.length_cons] at enough; omega⟩
    have others := ih opens.2 reads.2 blank fuel (by rw [List.length_cons] at enough; omega)
    rw [joined_cons, List.append_assoc, sequence, Json.skipSpace_append first, opens.1.skipSpace_append, reads.1]
    simp [skipSpace_cons (show isSpace ',' = false by decide), others]

theorem bracketed_joined (opens : ∀ b ∈ a :: as, Opens (text b))
    (reads : ∀ b ∈ a :: as, ∀ rest, item (text b ++ rest) = some (b, rest)) (rest : List Char) :
    bracketed item close (gap ++ (joined gap text a as ++ (last ++ close :: rest))) = some (a :: as, rest) := by
  have enough := length_lt_joined gap as (opens a List.mem_cons_self)
  obtain ⟨c, cs, start, space, square, curly⟩ : Opens (joined gap text a as) := (opens a List.mem_cons_self).append _
  have other : c ≠ close := by
    obtain rfl | rfl := closes
    · exact square
    · exact curly
  rw [bracketed, Json.skipSpace_append blank, start, List.cons_append, skipSpace_cons space]
  dsimp only
  rw [if_neg other, ← List.cons_append, ← start]
  rw [start, List.length_cons] at enough
  refine sequence_joined blank ends closes opens reads ?_ (List.forall_mem_nil _) rest
  rw [List.length_append]
  omega

end Parts

/-! ## Values -/

/-- A value with neither numbers nor broken strings in it. -/
inductive IsPlain : Json → Prop
  | null : IsPlain null
  | bool (b : Bool) : IsPlain (bool b)
  | text (s : String) : IsPlain (text s)
  | array {items : List Json} (all : ∀ j ∈ items, IsPlain j) : IsPlain (array items)
  | object {fields : List (String × Json)} (all : ∀ f ∈ fields, IsPlain f.2) : IsPlain (object fields)

/-- A layout with nothing but white space between the marks. -/
structure Layout.IsBlank (l : Layout) : Prop where
  newline : ∀ level, ∀ c ∈ l.newline level, isSpace c = true
  colon : ∃ gap, l.colon = ':' :: gap ∧ ∀ c ∈ gap, isSpace c = true

theorem Layout.isBlank_compact : compact.IsBlank := ⟨fun _ => List.forall_mem_nil _, [], rfl, List.forall_mem_nil _⟩

theorem Layout.isBlank_indented : indented.IsBlank := by
  refine ⟨fun level => List.forall_mem_cons.mpr ⟨rfl, fun c hc => ?_⟩, [' '], rfl, List.forall_mem_singleton.mpr rfl⟩
  rw [List.eq_of_mem_replicate hc]
  decide

section Values

variable {layout : Layout}

def writeField (layout : Layout) (level : Nat) (f : String × Json) : List Char :=
  quoted f.1 ++ (layout.colon ++ write layout level f.2)

theorem write_array (level : Nat) (j : Json) (js : List Json) : write layout level (array (j :: js)) =
    '[' :: (layout.newline (level + 1) ++ (joined (layout.newline (level + 1)) (write layout (level + 1)) j js ++
      (layout.newline level ++ [']']))) := by
  have items : writeItems layout level js =
      (js.flatMap fun j => ',' :: (layout.newline (level + 1) ++ write layout (level + 1) j)) ++
        (layout.newline level ++ [']']) := by
    induction js with
    | nil => rfl
    | cons j js ih => simp [writeItems, ih]
  simp [write, items, joined]

theorem write_object (level : Nat) (f : String × Json) (fs : List (String × Json)) :
    write layout level (object (f :: fs)) =
      '{' :: (layout.newline (level + 1) ++ (joined (layout.newline (level + 1)) (writeField layout (level + 1)) f fs ++
        (layout.newline level ++ ['}']))) := by
  have fields : writeFields layout level fs =
      (fs.flatMap fun f => ',' :: (layout.newline (level + 1) ++ writeField layout (level + 1) f)) ++
        (layout.newline level ++ ['}']) := by
    induction fs with
    | nil => rfl
    | cons f fs ih => simp [writeFields, writeField, ih]
  simp [write, fields, joined, writeField]

theorem opens_quoted (s : String) : Opens (quoted s) := ⟨'"', _, rfl, by decide, by decide, by decide⟩

theorem opens_write {j : Json} (h : j.IsPlain) (level : Nat) : Opens (write layout level j) := by
  cases h with
  | null => exact ⟨'n', _, rfl, by decide, by decide, by decide⟩
  | bool b => cases b <;> exact ⟨_, _, rfl, by decide, by decide, by decide⟩
  | text s => exact opens_quoted s
  | @array items _ => cases items <;> exact ⟨'[', _, rfl, by decide, by decide, by decide⟩
  | @object fields _ => cases fields <;> exact ⟨'{', _, rfl, by decide, by decide, by decide⟩

theorem member_writeField (blank : layout.IsBlank) {level : Nat} {f : String × Json}
    {read : List Char → Option (Json × List Char)} (opens : Opens (write layout level f.2))
    (reads : ∀ rest, read (write layout level f.2 ++ rest) = some (f.2, rest)) (rest : List Char) :
    member read (writeField layout level f ++ rest) = some (f, rest) := by
  obtain ⟨gap, colon, space⟩ := blank.colon
  obtain ⟨body, quotation, key⟩ := string?_quoted f.1 (':' :: (gap ++ (write layout level f.2 ++ rest)))
  have shape : writeField layout level f ++ rest = '"' :: body := by
    rw [← quotation, writeField, colon]
    simp
  rw [shape, member, key]
  simp [skipSpace_cons (show isSpace ':' = false by decide), skipSpace_append space, opens.skipSpace_append, reads]

/-- A value is read back by a reader that goes deeper than the text is long. -/
theorem value_write (blank : layout.IsBlank) {j : Json} (h : j.IsPlain) {level fuel : Nat}
    (enough : (write layout level j).length < fuel) (rest : List Char) :
    value fuel (write layout level j ++ rest) = some (j, rest) := by
  obtain ⟨fuel, rfl⟩ : ∃ n, fuel = n + 1 := ⟨fuel - 1, by omega⟩
  induction h generalizing level fuel rest with
  | null => rfl
  | bool b => cases b <;> rfl
  | text s =>
    obtain ⟨body, quotation, read⟩ := string?_quoted s rest
    rw [write, quotation, value, read]
    rfl
  | @array items all ih =>
    cases items with
    | nil => rfl
    | cons j js =>
      rw [write_array, List.length_cons, List.length_append, List.length_append] at enough
      have reads : ∀ b ∈ j :: js, ∀ rest, value fuel (write layout (level + 1) b ++ rest) = some (b, rest) := by
        intro b hb rest
        have part := length_le_joined (layout.newline (level + 1)) (write layout (level + 1)) hb
        obtain ⟨fuel, rfl⟩ : ∃ n, fuel = n + 1 := ⟨fuel - 1, by omega⟩
        exact ih b hb rest fuel (by omega)
      have opens : ∀ b ∈ j :: js, Opens (write layout (level + 1) b) := fun b hb => opens_write (all b hb) _
      have items := bracketed_joined (blank.newline (level + 1)) (blank.newline level) (.inl rfl) opens reads rest
      rw [write_array]
      simp only [List.cons_append, List.append_assoc, List.nil_append, value, items]
      rfl
  | @object fields all ih =>
    cases fields with
    | nil => rfl
    | cons f fs =>
      rw [write_object, List.length_cons, List.length_append, List.length_append] at enough
      have opens : ∀ g ∈ f :: fs, Opens (writeField layout (level + 1) g) := fun g _ => (opens_quoted g.1).append _
      have reads : ∀ g ∈ f :: fs, ∀ rest,
          member (value fuel) (writeField layout (level + 1) g ++ rest) = some (g, rest) := by
        intro g hg
        have part := length_le_joined (layout.newline (level + 1)) (writeField layout (level + 1)) hg
        rw [writeField, List.length_append, List.length_append] at part
        obtain ⟨fuel, rfl⟩ : ∃ n, fuel = n + 1 := ⟨fuel - 1, by omega⟩
        exact member_writeField blank (opens_write (all g hg) _) fun rest => ih g hg rest fuel (by omega)
      have fields := bracketed_joined (blank.newline (level + 1)) (blank.newline level) (.inr rfl) opens reads rest
      rw [write_object]
      simp only [List.cons_append, List.append_assoc, List.nil_append, value, fields]
      rfl

/-- A document is read back from its text. -/
theorem read?_write (blank : layout.IsBlank) {j : Json} (h : j.IsPlain) :
    read? (String.ofList (write layout 0 j)) = some j := by
  have opens : Opens (write layout 0 j) := opens_write h 0
  have spaced : skipSpace (write layout 0 j) = write layout 0 j := by simpa using opens.skipSpace_append []
  have read : value ((write layout 0 j).length + 1) (write layout 0 j) = some (j, []) := by
    simpa using value_write blank h (Nat.lt_succ_self _) []
  rw [read?, String.toList_ofList, spaced, read]
  rfl

theorem read?_oneLine {j : Json} (h : j.IsPlain) : read? j.oneLine = some j := read?_write Layout.isBlank_compact h

theorem read?_pretty {j : Json} (h : j.IsPlain) : read? j.pretty = some j := read?_write Layout.isBlank_indented h

end Values

end WorkflowCatalog.Json
