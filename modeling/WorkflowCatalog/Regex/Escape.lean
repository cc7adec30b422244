import WorkflowCatalog.Regex.Basic
import WorkflowCatalog.Text.Utf8

/-!
# Escapes in patterns

What a backslash and the characters after it stand for. With the `x` flag blanks and comments may stand
between the characters of a longer escape.
-/
namespace WorkflowCatalog.Regex

/-- The flags that hold at a place of a pattern. -/
structure Flags where
  anyCase : Bool
  lines : Bool
  dotAll : Bool
  unicode : Bool
  spaced : Bool
  returns : Bool
deriving DecidableEq, Repr

def Flags.initial : Flags := ⟨false, false, false, true, false, false⟩

/-- The text after a comment, which ends with its line. -/
def skipComment : List Char → List Char
  | [] => []
  | c :: cs => if c = '\n' then cs else skipComment cs

theorem length_skipComment (cs : List Char) : (skipComment cs).length ≤ cs.length := by
  induction cs with
  | nil => simp [skipComment]
  | cons c cs ih =>
    simp only [skipComment]
    split
    · simp
    · simp only [List.length_cons]
      omega

/-- Drops blanks and comments, if the flag for that is set. -/
def skip (spaced : Bool) (cs : List Char) : List Char :=
  match spaced, cs with
  | true, c :: rest =>
    if Text.isBlank c then skip true rest
    else if c = '#' then skip true (skipComment rest)
    else c :: rest
  | _, cs => cs
termination_by cs.length
decreasing_by
  · simp
  · have := length_skipComment rest
    simp
    omega

/-- What an escape stands for. A literal may be written as a byte of two digits. -/
inductive Escape
  | literal (c : Char) (byte : Bool)
  | symbols (s : Symbols)
  | place (p : Place)
deriving Repr

def isMeta (c : Char) : Bool := "\\.+*?()|[]\x7b\x7d^$#&-~".toList.contains c

def isAsciiAlphanumeric (c : Char) : Bool := Text.isDigit c || Text.isLetter c

/-- Marks that stand for themselves after a backslash. -/
def isEscapable (c : Char) : Bool :=
  isMeta c || (c.toNat < 128 && !isAsciiAlphanumeric c && c ≠ '<' && c ≠ '>')

/-- The next digits, as many as asked for. -/
def hexDigits? (spaced : Bool) : Nat → List Char → Option (List Char × List Char)
  | 0, cs => some ([], cs)
  | n + 1, c :: rest => do
    let _ ← Text.hexValue? c
    let (ds, rest) ← hexDigits? spaced n (skip spaced rest)
    return (c :: ds, rest)
  | _ + 1, [] => none

/-- The characters up to a closing brace. -/
def braced? (spaced : Bool) : Nat → List Char → Option (List Char × List Char)
  | 0, _ => none
  | fuel + 1, cs =>
    match skip spaced cs with
    | [] => none
    | '}' :: rest => some ([], rest)
    | c :: rest => (braced? spaced fuel rest).map fun r => (c :: r.1, r.2)

/-- A character given by its number, after the letter that says how many digits it has. -/
def numbered? (spaced : Bool) (digits : Nat) (cs : List Char) : Option (Escape × List Char) :=
  match skip spaced cs with
  | '{' :: rest => do
    let (ds, rest) ← braced? spaced (rest.length + 1) rest
    let c ← Text.character? ds
    return (.literal c false, skip spaced rest)
  | cs => do
    let (ds, rest) ← hexDigits? spaced digits cs
    let c ← Text.character? ds
    return (.literal c (digits == 2), rest)

def asciiDigit : Symbols := .within [(48, 57)]

def asciiSpace : Symbols := .within [(9, 13), (32, 32)]

def asciiWord : Symbols := .within [(48, 57), (65, 90), (95, 95), (97, 122)]

def negatedIf (negated : Bool) (s : Symbols) : Symbols := if negated then .complement s else s

def foldedIf (flags : Flags) (s : Symbols) : Symbols := if flags.anyCase then .anyCase flags.unicode s else s

/-- The classes written with one letter; the upper-case letter stands for what is outside of it. -/
def letterClass? (flags : Flags) (c : Char) : Option Symbols :=
  let table (unicode : List (Nat × Nat)) (ascii : Symbols) : Symbols :=
    negatedIf (decide (c ≤ 'Z')) (if flags.unicode then .within unicode else ascii)
  match c with
  | 'd' | 'D' => some (table Unicode.Category.decimalNumber asciiDigit)
  | 's' | 'S' => some (table Unicode.space asciiSpace)
  | 'w' | 'W' => some (table Unicode.word asciiWord)
  | _ => none

/-- Everything before the first occurrence of `mark`, and what follows it. -/
def cutAtMark? (mark : List Char) : List Char → Option (List Char × List Char)
  | [] => none
  | c :: cs =>
    match Text.dropMark? mark (c :: cs) with
    | some rest => some ([], rest)
    | none => (cutAtMark? mark cs).map fun r => (c :: r.1, r.2)

/-- The property named between braces, by one name or by kind and value; and whether it must not hold. -/
def named? (name : List Char) : Option (Symbols × Bool) := do
  let ofProperty (p : Unicode.Property) : Symbols := negatedIf p.outside (.within p.table)
  let valued (kind value : List Char) : Option Symbols :=
    (Unicode.propertyOf? (String.ofList kind) (String.ofList value)).map ofProperty
  match cutAtMark? ['!', '='] name with
  | some (kind, value) => (valued kind value).map (·, true)
  | none =>
    match cutAtMark? [':'] name with
    | some (kind, value) => (valued kind value).map (·, false)
    | none =>
      match cutAtMark? ['='] name with
      | some (kind, value) => (valued kind value).map (·, false)
      | none => (Unicode.property? (String.ofList name)).map fun p => (ofProperty p, false)

/-- A property after `\p` or `\P`; it needs characters and not bytes. -/
def propertyClass? (flags : Flags) (negated : Bool) (cs : List Char) : Option (Escape × List Char) := do
  if !flags.unicode then none
  let (name, rest) ← match skip flags.spaced cs with
    | [] => none
    | '{' :: rest => braced? flags.spaced (rest.length + 1) rest
    | c :: rest => if c = '\\' then none else some ([c], skip flags.spaced rest)
  let (s, not) ← named? name
  return (.symbols (negatedIf (negated != not) (foldedIf flags s)), rest)

def isEdgeNameChar (c : Char) : Bool := Text.isLetter c || c = '-'

def edgeName (spaced : Bool) : Nat → List Char → List Char × List Char
  | 0, cs => ([], cs)
  | _ + 1, [] => ([], [])
  | fuel + 1, c :: rest =>
    if isEdgeNameChar c then
      let (name, rest) := edgeName spaced fuel (skip spaced rest)
      (c :: name, rest)
    else ([], c :: rest)

/-- A word boundary, perhaps of a kind named in braces. Braces with something else are left alone. -/
def edge? (flags : Flags) (cs : List Char) : Option (Escape × List Char) :=
  match cs with
  | '{' :: rest =>
    match skip flags.spaced rest with
    | [] => none
    | c :: more =>
      if !isEdgeNameChar c then some (.place (.wordEdge flags.unicode), cs)
      else
        let (name, rest) := edgeName flags.spaced (more.length + 2) (c :: more)
        match rest with
        | '}' :: rest =>
          match String.ofList name with
          | "start" => some (.place (.wordStart flags.unicode), rest)
          | "end" => some (.place (.wordEnd flags.unicode), rest)
          | "start-half" => some (.place (.wordStartHalf flags.unicode), rest)
          | "end-half" => some (.place (.wordEndHalf flags.unicode), rest)
          | _ => none
        | _ => none
  | _ => some (.place (.wordEdge flags.unicode), cs)

/-- The escape after a backslash. There are no references back to groups. -/
def escape? (flags : Flags) : List Char → Option (Escape × List Char)
  | [] => none
  | c :: rest =>
    match letterClass? flags c with
    | some s => some (.symbols s, rest)
    | none =>
      match c with
      | 'x' => numbered? flags.spaced 2 rest
      | 'u' => numbered? flags.spaced 4 rest
      | 'U' => numbered? flags.spaced 8 rest
      | 'p' => propertyClass? flags false rest
      | 'P' => propertyClass? flags true rest
      | 'a' => some (.literal '\x07' false, rest)
      | 'f' => some (.literal '\x0c' false, rest)
      | 't' => some (.literal '\t' false, rest)
      | 'n' => some (.literal '\n' false, rest)
      | 'r' => some (.literal '\r' false, rest)
      | 'v' => some (.literal '\x0b' false, rest)
      | 'A' => some (.place .textStart, rest)
      | 'z' => some (.place .textEnd, rest)
      | 'b' => edge? flags rest
      | 'B' => some (.place (.notWordEdge flags.unicode), rest)
      | '<' => some (.place (.wordStart flags.unicode), rest)
      | '>' => some (.place (.wordEnd flags.unicode), rest)
      | c => if isEscapable c then some (.literal c false, rest) else none

/-- Without characters a byte beyond ASCII is no text. -/
def literalByte? (flags : Flags) (c : Char) (byte : Bool) : Option Char :=
  if !flags.unicode && byte && 128 ≤ c.toNat then none else some c

/-- Without characters a set must hold bytes of ASCII only. -/
def checked? (flags : Flags) (s : Symbols) : Option Symbols :=
  if flags.unicode || (List.range 128).all fun n => !s.contains (128 + n) then some s else none

end WorkflowCatalog.Regex
