import WorkflowCatalog.Json.Basic
import WorkflowCatalog.Text.Utf8

/-!
# Reading JSON

A document is one value with white space around it and nothing else. Each reader takes a value off the
front of the text and returns what is left.
-/
namespace WorkflowCatalog.Json

def isSpace (c : Char) : Bool := c = ' ' || c = '\n' || c = '\t' || c = '\r'

def skipSpace (cs : List Char) : List Char := cs.dropWhile isSpace

/-- A character of a string: itself, or the sixteen-bit unit of a numeric escape. -/
inductive Piece | char (c : Char) | unit (n : Nat)
deriving DecidableEq, Repr

def shortEscape? (c : Char) : Option Char :=
  match c with
  | '"' => some '"'
  | '\\' => some '\\'
  | '/' => some '/'
  | 'b' => some '\x08'
  | 'f' => some '\x0c'
  | 'n' => some '\n'
  | 'r' => some '\r'
  | 't' => some '\t'
  | _ => none

/-- The pieces up to the closing quote; control characters must be escaped. -/
def pieces : List Char → Option (List Piece × List Char)
  | [] => none
  | '"' :: rest => some ([], rest)
  | '\\' :: 'u' :: a :: b :: c :: d :: rest => do
    let n ← Text.natural? 16 [a, b, c, d]
    let (ps, rest) ← pieces rest
    return (.unit n :: ps, rest)
  | '\\' :: e :: rest => do
    let c ← shortEscape? e
    let (ps, rest) ← pieces rest
    return (.char c :: ps, rest)
  | c :: rest =>
    if c.toNat < 0x20 || c = '\\' then none
    else do
      let (ps, rest) ← pieces rest
      return (.char c :: ps, rest)

def isHigh (n : Nat) : Bool := 0xD800 ≤ n && n < 0xDC00

def isLow (n : Nat) : Bool := 0xDC00 ≤ n && n < 0xE000

/-- Joins surrogate pairs; a half without the other makes no text. -/
def joinPieces : List Piece → Option (List Char)
  | [] => some []
  | .char c :: ps => (joinPieces ps).map (c :: ·)
  | .unit n :: ps =>
    if isHigh n then
      match ps with
      | .unit m :: ps =>
        if isLow m then (joinPieces ps).map (Char.ofNat (0x10000 + (n - 0xD800) * 0x400 + (m - 0xDC00)) :: ·)
        else none
      | _ => none
    else if isLow n then none
    else (joinPieces ps).map (Char.ofNat n :: ·)

def string? (cs : List Char) : Option (Option String × List Char) := do
  let (ps, rest) ← pieces cs
  return ((joinPieces ps).map String.ofList, rest)

/-- At least one digit, and what follows the digits. -/
def digits? (cs : List Char) : Option (List Char × List Char) :=
  let ds := cs.takeWhile Text.isDigit
  if ds.isEmpty then none else some (ds, cs.dropWhile Text.isDigit)

def sign : List Char → List Char × List Char
  | '-' :: rest => (['-'], rest)
  | cs => ([], cs)

def whole? (cs : List Char) : Option (List Char × List Char) := do
  let (ds, rest) ← digits? cs
  if ds.head? = some '0' ∧ ds.length ≠ 1 then none else return (ds, rest)

def fraction? : List Char → Option (List Char × List Char)
  | '.' :: rest => do
    let (ds, rest) ← digits? rest
    return ('.' :: ds, rest)
  | cs => some ([], cs)

def exponent? : List Char → Option (List Char × List Char)
  | e :: rest =>
    if e = 'e' ∨ e = 'E' then do
      let (s, rest) := match rest with
        | '+' :: more => (['+'], more)
        | '-' :: more => (['-'], more)
        | _ => ([], rest)
      let (ds, rest) ← digits? rest
      return (e :: s ++ ds, rest)
    else some ([], e :: rest)
  | [] => some ([], [])

def number? (cs : List Char) : Option (Json × List Char) := do
  let (s, rest) := sign cs
  let (w, rest) ← whole? rest
  let (f, rest) ← fraction? rest
  let (e, rest) ← exponent? rest
  return (.number (String.ofList (s ++ w ++ f ++ e)), rest)

/-- Items set apart by commas, up to the closing mark; the fuel bounds their number. -/
def sequence {α : Type} (item : List Char → Option (α × List Char)) (close : Char) :
    Nat → List Char → Option (List α × List Char)
  | 0, _ => none
  | fuel + 1, cs => do
    let (a, rest) ← item (skipSpace cs)
    match skipSpace rest with
    | ',' :: more =>
      let (as, rest) ← sequence item close fuel more
      return (a :: as, rest)
    | c :: more => if c = close then return ([a], more) else none
    | [] => none

def bracketed {α : Type} (item : List Char → Option (α × List Char)) (close : Char) (cs : List Char) :
    Option (List α × List Char) :=
  match skipSpace cs with
  | [] => none
  | c :: rest => if c = close then some ([], rest) else sequence item close (rest.length + 1) (c :: rest)

def member (value : List Char → Option (Json × List Char)) : List Char → Option ((String × Json) × List Char)
  | '"' :: rest => do
    let (key, rest) ← string? rest
    let key ← key
    match skipSpace rest with
    | ':' :: rest =>
      let (v, rest) ← value (skipSpace rest)
      return ((key, v), rest)
    | _ => none
  | _ => none

/-- A value at the front of the text, nested no deeper than the fuel. -/
def value : Nat → List Char → Option (Json × List Char)
  | 0, _ => none
  | fuel + 1, cs =>
    match cs with
    | 'n' :: 'u' :: 'l' :: 'l' :: rest => some (.null, rest)
    | 't' :: 'r' :: 'u' :: 'e' :: rest => some (.bool true, rest)
    | 'f' :: 'a' :: 'l' :: 's' :: 'e' :: rest => some (.bool false, rest)
    | '"' :: rest => do
      let (s, rest) ← string? rest
      return (match s with | some s => .text s | none => .unpaired, rest)
    | '[' :: rest => do
      let (items, rest) ← bracketed (value fuel) ']' rest
      return (.array items, rest)
    | '{' :: rest => do
      let (fields, rest) ← bracketed (member (value fuel)) '}' rest
      return (.object fields, rest)
    | _ => number? cs

def read? (text : String) : Option Json :=
  let cs := text.toList
  match value (cs.length + 1) (skipSpace cs) with
  | some (j, rest) => if (skipSpace rest).isEmpty then some j else none
  | none => none

end WorkflowCatalog.Json
