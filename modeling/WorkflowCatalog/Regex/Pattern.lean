import WorkflowCatalog.Regex.Bracket

/-!
# Patterns

Reading the text of a regular expression. Groups only bind and set flags: there is no way to refer to
what they matched, and no looking ahead or behind. A pattern whose repetitions would grow too large is
refused.
-/
namespace WorkflowCatalog.Regex

/-- An alternative as it is read: its parts, and whether the last one can be repeated. -/
structure Branch where
  parts : List Regex
  repeatable : Bool

namespace Branch

def empty : Branch := ⟨[], false⟩

def push (b : Branch) (r : Regex) : Branch := ⟨r :: b.parts, true⟩

/-- Flags set in the middle of an alternative cannot be repeated. -/
def flagged (b : Branch) : Branch := { b with repeatable := false }

def toRegex (b : Branch) : Regex :=
  match b.parts with
  | [] => .empty
  | r :: rs => rs.foldl (fun after r => .both r after) r

end Branch

/-- What has been read of a group: finished alternatives, last first, and the current one. -/
structure Group where
  done : List Regex
  current : Branch

namespace Group

def empty : Group := ⟨[], .empty⟩

def push (g : Group) (r : Regex) : Group := { g with current := g.current.push r }

def flagged (g : Group) : Group := { g with current := g.current.flagged }

def nextBranch (g : Group) : Group := ⟨g.current.toRegex :: g.done, .empty⟩

def toRegex (g : Group) : Regex := g.done.foldl (fun after r => .either r after) g.current.toRegex

end Group

/-- Whether every match is of the empty text. -/
def isWidthless : Regex → Bool
  | .empty => true
  | .one _ => false
  | .place _ => true
  | .both a b => a.isWidthless && b.isWidthless
  | .either a b => a.isWidthless && b.isWidthless
  | .times _ _ a => a.isWidthless

/-- A repetition; of what has no width once is as good as any number of times. -/
def repeated (least : Nat) (most : Option Nat) (r : Regex) : Regex :=
  if most = some 0 then .empty
  else if r.isWidthless then .times (min least 1) (some 1) r
  else .times least most r

def Group.repeatLast? (g : Group) (least : Nat) (most : Option Nat) : Option Group :=
  match g.current.parts, g.current.repeatable with
  | r :: rs, true => some { g with current := ⟨repeated least most r :: rs, true⟩ }
  | _, _ => none

/-- A question mark after a repetition only says which match is preferred. -/
def dropLazy : List Char → List Char
  | '?' :: rest => rest
  | cs => cs

def digitRun (spaced : Bool) : Nat → List Char → List Char × List Char
  | fuel + 1, c :: rest =>
    if Text.isDigit c then
      let (ds, rest) := digitRun spaced fuel (skip spaced rest)
      (c :: ds, rest)
    else ([], c :: rest)
  | _, cs => ([], cs)

/-- A count below 2³², with blanks around it. -/
def count? (spaced : Bool) (cs : List Char) : Option (Nat × List Char) :=
  let cs := cs.dropWhile Text.isBlank
  let (ds, rest) := digitRun spaced cs.length cs
  let n := Text.digitsValue ds
  if ds.isEmpty || Nat.pow 2 32 ≤ n then none else some (n, skip spaced (rest.dropWhile Text.isBlank))

/-- The bounds of a counted repetition after its opening brace. -/
def bounds? (spaced : Bool) (cs : List Char) : Option ((Nat × Option Nat) × List Char) := do
  let (least, rest) ← count? spaced (skip spaced cs)
  match rest with
  | '}' :: rest => return ((least, some least), rest)
  | ',' :: rest =>
    match skip spaced rest with
    | '}' :: rest => return ((least, none), rest)
    | rest =>
      let (most, rest) ← count? spaced rest
      match rest with
      | '}' :: rest => if least ≤ most then return ((least, some most), rest) else none
      | _ => none
  | _ => none

/-- Sets or clears the flag of that letter. -/
def Flags.set? (flags : Flags) (letter : Char) (on : Bool) : Option Flags :=
  match letter with
  | 'i' => some { flags with anyCase := on }
  | 'm' => some { flags with lines := on }
  | 's' => some { flags with dotAll := on }
  | 'u' => some { flags with unicode := on }
  | 'x' => some { flags with spaced := on }
  | 'R' => some { flags with returns := on }
  | 'U' => some flags
  | _ => none

/-- Flag letters up to a colon or closing parenthesis, with one hyphen before those that are cleared.
No letter stands twice, and the hyphen not last. Yields how many there were, and the closing mark. -/
def flagItems? (flags : Flags) (seen : List Char) : List Char → Option (Flags × Nat × Char × List Char)
  | [] => none
  | ':' :: rest => if seen.head? = some '-' then none else some (flags, seen.length, ':', rest)
  | ')' :: rest => if seen.head? = some '-' then none else some (flags, seen.length, ')', rest)
  | c :: rest =>
    if seen.contains c then none
    else if c = '-' then flagItems? flags ('-' :: seen) rest
    else do flagItems? (← flags.set? c (!seen.contains '-')) (c :: seen) rest

def isNameChar (first : Bool) (c : Char) : Bool :=
  c = '_' || Unicode.within Unicode.alphabetic c.toNat ||
    (!first && (c = '.' || c = '[' || c = ']' || Unicode.within (Unicode.major 'n') c.toNat))

/-- The name of a group, which no earlier group has. -/
def groupName? (names : List String) (cs : List Char) : Option (String × List Char) :=
  match Text.cutAt '>' cs with
  | (first :: more, some rest) =>
    let name := String.ofList (first :: more)
    if isNameChar true first && more.all (isNameChar false) && !names.contains name then some (name, rest)
    else none
  | _ => none

/-- What follows an opening parenthesis. -/
inductive Opening
  | flags (flags : Flags)
  | group (flags : Flags) (names : List String)

def opening? (flags : Flags) (names : List String) (cs : List Char) : Option (Opening × List Char) :=
  match skip flags.spaced cs with
  | '?' :: 'P' :: '<' :: rest => named rest
  | '?' :: '=' :: _ => none
  | '?' :: '!' :: _ => none
  | '?' :: '<' :: '=' :: _ => none
  | '?' :: '<' :: '!' :: _ => none
  | '?' :: '<' :: rest => named rest
  | '?' :: rest => do
    let (inner, count, mark, rest) ← flagItems? flags [] rest
    if mark = ':' then return (.group inner names, rest)
    else if count = 0 then none
    else return (.flags inner, rest)
  | rest => some (.group flags names, rest)
where
  named (rest : List Char) : Option (Opening × List Char) :=
    (groupName? names rest).map fun (name, rest) => (.group flags (name :: names), rest)

def dot? (flags : Flags) : Option Symbols :=
  let all : Symbols := if flags.dotAll then .all
    else .complement (if flags.returns then .within [(10, 10), (13, 13)] else .single 10)
  checked? flags all

def lineStart (flags : Flags) : Place :=
  if !flags.lines then .textStart else if flags.returns then .returnLineStart else .lineStart

def lineEnd (flags : Flags) : Place :=
  if !flags.lines then .textEnd else if flags.returns then .returnLineEnd else .lineEnd

/-- Without characters, case is known for letters of ASCII only. -/
def literal (flags : Flags) (c : Char) : Regex :=
  .one (foldedIf flags (.single c.toNat))

def ofEscape? (flags : Flags) : Escape → Option Regex
  | .literal c byte => (literalByte? flags c byte).map (literal flags)
  | .symbols s => (checked? flags s).map .one
  | .place p => some (.place p)

/-- One character, escape or set of characters at the front of a pattern. -/
def atom? (flags : Flags) : List Char → Option (Regex × List Char)
  | [] => none
  | '\\' :: rest => do
    let (e, rest) ← escape? flags rest
    return (← ofEscape? flags e, rest)
  | '.' :: rest => (dot? flags).map fun s => (.one s, rest)
  | '^' :: rest => some (.place (lineStart flags), rest)
  | '$' :: rest => some (.place (lineEnd flags), rest)
  | '[' :: rest => (bracket? flags rest).map fun (s, rest) => (.one s, rest)
  | c :: rest => some (literal flags c, rest)

/-- The parts of a group up to its closing parenthesis, which is left, or to the end. -/
def parts? : Nat → Flags → List String → Group → List Char → Option (Regex × List String × List Char)
  | 0, _, _, _, _ => none
  | fuel + 1, flags, names, g, cs =>
    let again (least : Nat) (most : Option Nat) (rest : List Char) := do
      parts? fuel flags names (← g.repeatLast? least most) rest
    match skip flags.spaced cs with
    | [] => some (g.toRegex, names, [])
    | ')' :: rest => some (g.toRegex, names, ')' :: rest)
    | '|' :: rest => parts? fuel flags names g.nextBranch rest
    | '?' :: rest => again 0 (some 1) (dropLazy rest)
    | '*' :: rest => again 0 none (dropLazy rest)
    | '+' :: rest => again 1 none (dropLazy rest)
    | '{' :: rest => do
      let ((least, most), rest) ← bounds? flags.spaced rest
      again least most (dropLazy (skip flags.spaced rest))
    | '(' :: rest => do
      match ← opening? flags names rest with
      | (.flags inner, rest) => parts? fuel inner names g.flagged rest
      | (.group inner names, rest) =>
        let (r, names, rest) ← parts? fuel inner names .empty rest
        match rest with
        | ')' :: rest => parts? fuel flags names (g.push r) rest
        | _ => none
    | cs => do
      let (r, rest) ← atom? flags cs
      parts? fuel flags names (g.push r) rest

/-- The most steps that a pattern may unfold to. An engine that compiles patterns has a limit on the memory that
this takes, 10 MiB; the steps are an estimate of it, which may be wrong for patterns near the limit. -/
def maxWeight : Nat := 327680

/-- The expression of a pattern, if it is well formed and not too large. There is no limit to how deep groups are
nested, where such an engine stops at 250 levels. -/
def ofPattern? (pattern : List Char) : Option Regex :=
  match parts? (pattern.length + 1) .initial [] .empty pattern with
  | some (r, _, []) => if r.weight ≤ maxWeight then some r else none
  | _ => none

end WorkflowCatalog.Regex
