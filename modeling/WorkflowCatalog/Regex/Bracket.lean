import WorkflowCatalog.Regex.Escape

/-!
# Sets in brackets

A set is a union of characters, ranges, named classes and sets within it. Unions may be intersected or
subtracted, from left to right.
-/
namespace WorkflowCatalog.Regex

def asciiClass? (name : String) : Option Symbols :=
  match name with
  | "alnum" => some (.within [(48, 57), (65, 90), (97, 122)])
  | "alpha" => some (.within [(65, 90), (97, 122)])
  | "ascii" => some (.within [(0, 127)])
  | "blank" => some (.within [(9, 9), (32, 32)])
  | "cntrl" => some (.within [(0, 31), (127, 127)])
  | "digit" => some asciiDigit
  | "graph" => some (.within [(33, 126)])
  | "lower" => some (.within [(97, 122)])
  | "print" => some (.within [(32, 126)])
  | "punct" => some (.within [(33, 47), (58, 64), (91, 96), (123, 126)])
  | "space" => some asciiSpace
  | "upper" => some (.within [(65, 90)])
  | "word" => some asciiWord
  | "xdigit" => some (.within [(48, 57), (65, 70), (97, 102)])
  | _ => none

/-- A named class after its opening bracket. -/
def namedClass? (flags : Flags) (cs : List Char) : Option (Symbols × List Char) := do
  let rest ← Text.dropMark? [':'] cs
  let (negated, rest) := match rest with
    | '^' :: rest => (true, rest)
    | _ => (false, rest)
  let (name, rest) := Text.cutAt ':' rest
  let rest ← Text.dropMark? [']'] (← rest)
  let s ← asciiClass? (String.ofList name)
  return (negatedIf negated (foldedIf flags s), rest)

inductive Combination | intersection | difference | symmetric
deriving DecidableEq, Repr

def Combination.apply (op : Combination) (a b : Symbols) : Symbols :=
  match op with
  | .intersection => .inter a b
  | .difference => .inter a (.complement b)
  | .symmetric => .union (.inter a (.complement b)) (.inter b (.complement a))

/-- The set to the left of an operator that still waits for its right side. -/
abbrev Pending := Option (Combination × Symbols)

def Pending.close (flags : Flags) (pending : Pending) (s : Symbols) : Symbols :=
  match pending with
  | none => s
  | some (op, left) => op.apply (foldedIf flags left) (foldedIf flags s)

/-- One character of a set as it is written, or an escape. -/
def setItem? (flags : Flags) : List Char → Option (Escape × List Char)
  | [] => none
  | '\\' :: rest => escape? flags rest
  | c :: rest => some (.literal c false, rest)

/-- Without characters only ASCII may stand in a set. -/
def setLiteral? (flags : Flags) : Escape → Option Char
  | .literal c _ => if !flags.unicode && 128 ≤ c.toNat then none else some c
  | _ => none

def setSymbols? (flags : Flags) : Escape → Option Symbols
  | .symbols s => checked? flags s
  | e => (setLiteral? flags e).map fun c => .single c.toNat

/-- A single item or a range. -/
def setRange? (flags : Flags) (cs : List Char) : Option (Symbols × List Char) := do
  let (low, rest) ← setItem? flags cs
  match skip flags.spaced rest with
  | [] => none
  | '-' :: more =>
    match skip flags.spaced more with
    | ']' :: _ => return (← setSymbols? flags low, '-' :: more)
    | '-' :: _ => return (← setSymbols? flags low, '-' :: more)
    | more =>
      let (high, rest) ← setItem? flags more
      let low ← setLiteral? flags low
      let high ← setLiteral? flags high
      if low ≤ high then return (.within [(low.toNat, high.toNat)], rest) else none
  | rest => return (← setSymbols? flags low, rest)

/-- Hyphens at the front of a set stand for themselves. -/
def leadingHyphens (spaced : Bool) : Nat → List Char → Symbols × List Char
  | fuel + 1, '-' :: rest =>
    let (s, rest) := leadingHyphens spaced fuel (skip spaced rest)
    (.union (.single '-'.toNat) s, rest)
  | _, cs => (.nothing, cs)

/-- What follows an opening bracket: a mark for negation, and a hyphen or closing bracket as a literal. -/
def setHead (spaced : Bool) (cs : List Char) : Bool × Symbols × List Char :=
  let (negated, cs) := match skip spaced cs with
    | '^' :: rest => (true, skip spaced rest)
    | cs => (false, cs)
  match leadingHyphens spaced cs.length cs with
  | (.within [], ']' :: rest) => (negated, .single ']'.toNat, skip spaced rest)
  | (s, rest) => (negated, s, rest)

/-- The set up to its closing bracket, and what follows that. -/
def setItems? (flags : Flags) : Nat → Pending → Symbols → List Char → Option (Symbols × List Char)
  | 0, _, _, _ => none
  | fuel + 1, pending, s, cs =>
    let operator (op : Combination) (rest : List Char) :=
      setItems? flags fuel (some (op, pending.close flags s)) .nothing rest
    match skip flags.spaced cs with
    | [] => none
    | '[' :: rest =>
      match namedClass? flags rest with
      | some (c, rest) => do setItems? flags fuel pending (.union s (← checked? flags c)) rest
      | none => do
        let (negated, start, rest) := setHead flags.spaced rest
        let (inner, rest) ← setItems? flags fuel none start rest
        let inner ← checked? flags (negatedIf negated (foldedIf flags inner))
        setItems? flags fuel pending (.union s inner) rest
    | ']' :: rest => some (pending.close flags s, rest)
    | '&' :: '&' :: rest => operator .intersection rest
    | '-' :: '-' :: rest => operator .difference rest
    | '~' :: '~' :: rest => operator .symmetric rest
    | cs => do
      let (item, rest) ← setRange? flags cs
      setItems? flags fuel pending (.union s item) rest

/-- The set after an opening bracket outside of any set. -/
def bracket? (flags : Flags) (cs : List Char) : Option (Symbols × List Char) := do
  let (negated, start, rest) := setHead flags.spaced cs
  let (s, rest) ← setItems? flags (rest.length + 1) none start rest
  return (← checked? flags (negatedIf negated (foldedIf flags s)), rest)

end WorkflowCatalog.Regex
