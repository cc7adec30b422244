import WorkflowCatalog.Regex.Basic

/-!
# Globs

Patterns of names in which a star crosses slashes. They match bytes, so a question mark or a class never
stands for a whole character beyond ASCII. Two stars as a whole component of a path are recursive.
-/
namespace WorkflowCatalog

namespace Glob

inductive Part
  | literal (c : Char)
  | anyByte
  | anyBytes
  | leading
  | trailing
  | between
  | oneOf (negated : Bool) (ranges : List (Char × Char))
  | alternatives (branches : List (List Part))
deriving Repr

/-- The ranges of a class up to its closing bracket. A hyphen joins what stands around it. -/
def classRanges? : Bool → Bool → List (Char × Char) → List Char → Option (List (Char × Char) × List Char)
  | _, _, _, [] => none
  | first, open?, ranges, c :: rest =>
    if c = ']' && !first then
      some (ranges.reverse ++ (if open? then [('-', '-')] else []), rest)
    else if c = '-' && !first && !open? then classRanges? false true ranges rest
    else
      match open?, ranges with
      | true, (low, _) :: others =>
        if low ≤ c then classRanges? false false ((low, c) :: others) rest else none
      | _, _ => classRanges? false false ((c, c) :: ranges) rest

/-- A class after its opening bracket; a closing bracket right at the front is a member. -/
def class? (cs : List Char) : Option (Part × List Char) :=
  match cs with
  | '!' :: rest => (classRanges? true false [] rest).map fun r => (.oneOf true r.1, r.2)
  | '^' :: rest => (classRanges? true false [] rest).map fun r => (.oneOf true r.1, r.2)
  | _ => (classRanges? true false [] cs).map fun r => (.oneOf false r.1, r.2)

/-- Two stars, given what stands before and after them. They are recursive only between slashes or ends;
then they take the slash after them and the part before them. -/
def twoStars (inside : Bool) (before : Option Char) (parts : List Part) (rest : List Char) :
    List Part × Option Char × List Char :=
  let plain := (.anyBytes :: .anyBytes :: parts, some '*', rest)
  let joined (part : Part) : List Part :=
    match parts with
    | .leading :: others => .leading :: others
    | .trailing :: others => .trailing :: others
    | _ :: others => part :: others
    | [] => [part]
  if parts.isEmpty then
    match rest with
    | [] => ([.leading], some '*', [])
    | '/' :: rest => ([.leading], some '/', rest)
    | _ => plain
  else if before ≠ some '/' && !(inside && (before = some ',' || before = some '{')) then plain
  else
    match rest with
    | [] => (joined .trailing, some '*', [])
    | '/' :: rest => (joined .between, some '/', rest)
    | c :: _ => if inside && (c = ',' || c = '}') then (joined .trailing, some '*', rest) else plain

mutual

/-- The parts up to the end, or in braces up to a comma or the closing brace, which is left. -/
def parts? : Nat → Bool → Option Char → List Part → List Char → Option (List Part × List Char)
  | 0, _, _, _, _ => none
  | fuel + 1, inside, before, parts, cs =>
    match cs with
    | [] => if inside then none else some (parts.reverse, [])
    | '?' :: rest => parts? fuel inside (some '?') (.anyByte :: parts) rest
    | '*' :: '*' :: rest =>
      let (parts, before, rest) := twoStars inside before parts rest
      parts? fuel inside before parts rest
    | '*' :: rest => parts? fuel inside (some '*') (.anyBytes :: parts) rest
    | '[' :: rest => do
      let (part, rest) ← class? rest
      parts? fuel inside (some ']') (part :: parts) rest
    | '{' :: rest => do
      let (branches, rest) ← branches? fuel '{' rest
      parts? fuel inside (some '}') (.alternatives branches :: parts) rest
    | '}' :: rest => if inside then some (parts.reverse, '}' :: rest) else none
    | ',' :: rest =>
      if inside then some (parts.reverse, ',' :: rest)
      else parts? fuel inside (some ',') (.literal ',' :: parts) rest
    | '\\' :: [] => none
    | '\\' :: c :: rest => parts? fuel inside (some c) (.literal c :: parts) rest
    | c :: rest => parts? fuel inside (some c) (.literal c :: parts) rest

/-- The alternatives up to the closing brace. -/
def branches? : Nat → Char → List Char → Option (List (List Part) × List Char)
  | 0, _, _ => none
  | fuel + 1, before, cs => do
    let (parts, rest) ← parts? fuel true (some before) [] cs
    match rest with
    | ',' :: rest =>
      let (more, rest) ← branches? fuel ',' rest
      return (parts :: more, rest)
    | '}' :: rest => return ([parts], rest)
    | _ => none

end

def bytesOf (c : Char) : List Nat := (String.utf8EncodeChar c).map UInt8.toNat

def slash : Regex := .one (.single '/'.toNat)

def anything : Regex := .times 0 none (.one .all)

/-- The bytes of a class: those of its characters, and between the last byte of one end and the first of
the other. -/
def bytesOfRange (r : Char × Char) : List (Nat × Nat) :=
  if r.1 = r.2 then (bytesOf r.1).map fun b => (b, b)
  else
    let low := bytesOf r.1
    let high := bytesOf r.2
    (low.map fun b => (b, b)) ++ [(low.getLast?.getD 0, high.head?.getD 0)] ++ high.map fun b => (b, b)

def sequence : List Regex → Regex
  | [] => .empty
  | r :: rs => rs.foldl .both r

def choice : List Regex → Regex
  | [] => .empty
  | r :: rs => rs.foldl .either r

mutual

/-- The expressions of the parts one after the other; alternatives without any text are left out. -/
def Part.regexes : Part → List Regex
  | .literal c => (bytesOf c).map fun b => .one (.single b)
  | .anyByte => [.one .all]
  | .anyBytes => [anything]
  | .leading => [.either (.times 0 (some 1) slash) (.both anything slash)]
  | .trailing => [.both slash anything]
  | .between => [.either slash (.both slash (.both anything slash))]
  | .oneOf negated ranges =>
    let s : Symbols := .within (ranges.flatMap bytesOfRange)
    [.one (if negated then .complement s else s)]
  | .alternatives branches =>
    match branchRegexes branches with
    | [] => []
    | rs => [choice rs]

def regexesOf : List Part → List Regex
  | [] => []
  | p :: ps => p.regexes ++ regexesOf ps

def branchRegexes : List (List Part) → List Regex
  | [] => []
  | ps :: rest =>
    match regexesOf ps with
    | [] => branchRegexes rest
    | rs => sequence rs :: branchRegexes rest

end

def Part.isLiteral : Part → Bool
  | .literal _ => true
  | _ => false

def Part.isDot : Part → Bool
  | .literal c => c = '.'
  | _ => false

def Part.isSlash : Part → Bool
  | .literal c => c = '/'
  | _ => false

def Part.isLeading : Part → Bool
  | .leading => true
  | _ => false

def Part.isAnyBytes : Part → Bool
  | .anyBytes => true
  | _ => false

/-- Whether a pattern that ends in a dot asks for the last component of a name or for its extension. A
name that ends in a dot has neither, so such a pattern matches nothing. -/
def asksForLastComponent (parts : List Part) : Bool :=
  let recursive := (parts.head?.map Part.isLeading).getD false
  let body := if recursive then parts.drop 1 else parts
  let starred := (body.head?.map Part.isAnyBytes).getD false
  let tail := if starred then body.drop 1 else body
  (parts.getLast?.map Part.isDot).getD false &&
    if tail.all Part.isLiteral then
      if starred then tail.length == 1 else recursive && !tail.any Part.isSlash
    else true

end Glob

/-- A glob is the expression over bytes that it stands for. -/
structure Glob where
  regex : Regex
deriving DecidableEq, Repr

namespace Glob

def ofParts (parts : List Part) : Glob :=
  match parts with
  | [.leading] => ⟨anything⟩
  | _ => if asksForLastComponent parts then ⟨.one .nothing⟩ else ⟨sequence (regexesOf parts)⟩

def ofPattern? (pattern : List Char) : Option Glob :=
  match parts? (2 * pattern.length + 2) false none [] pattern with
  | some (parts, []) => some (ofParts parts)
  | _ => none

def accepts (g : Glob) (name : String) : Bool :=
  g.regex.matchesAll (name.toUTF8.toList.map UInt8.toNat)

end Glob

end WorkflowCatalog
