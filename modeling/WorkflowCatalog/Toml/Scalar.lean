import WorkflowCatalog.Text.Utf8
import WorkflowCatalog.Timestamp
import WorkflowCatalog.Toml.Basic

/-!
# Words of a TOML document

Truth values, numbers, dates and times are words without blanks, but for the blank that may stand between
a date and a time.
-/
namespace WorkflowCatalog.Toml

/-- Digits with single underscores between them; without these. -/
def spaced? (isDigit : Char → Bool) : List Char → Option (List Char)
  | [] => none
  | [d] => if isDigit d then some [d] else none
  | d :: '_' :: rest => if isDigit d then (spaced? isDigit rest).map (d :: ·) else none
  | d :: rest => if isDigit d then (spaced? isDigit rest).map (d :: ·) else none

/-- Decimal digits without a needless zero in front. -/
def whole? (cs : List Char) : Option (List Char) :=
  match spaced? Text.isDigit cs with
  | some ('0' :: _ :: _) => none
  | r => r

def sign : List Char → Bool × List Char
  | '-' :: rest => (true, rest)
  | '+' :: rest => (false, rest)
  | cs => (false, cs)

/-- An integer of 64 bits; only a decimal one may have a sign. -/
def integer? (cs : List Char) : Option Int := do
  let n ← match Text.radix? cs with
    | some (radix, ds) =>
      let ds ← spaced? (fun d => (Text.digitValue? radix d).isSome) ds
      (Text.natural? radix ds).map Int.ofNat
    | none =>
      let (negative, ds) := sign cs
      (whole? ds).map fun ds => if negative then -(Text.digitsValue ds : Int) else Text.digitsValue ds
  if n < -(Nat.pow 2 63 : Int) ∨ (Nat.pow 2 63 : Int) ≤ n then none else return n

def exponent? (cs : List Char) : Option Int :=
  let (negative, ds) := sign cs
  (spaced? Text.isDigit ds).map fun ds => if negative then -(Text.digitsValue ds : Int) else Text.digitsValue ds

/-- Digits before and after the point. -/
def mantissa? (cs : List Char) : Option (List Char × List Char) :=
  match Text.cutAt '.' cs with
  | (w, none) => (whole? w).map fun ds => (ds, [])
  | (w, some f) => do return (← whole? w, ← spaced? Text.isDigit f)

/-- A float that is too large is refused, but not below zero. -/
def float? (cs : List Char) : Option Decimal.Number := do
  let (negative, body) := sign cs
  if body = ['i', 'n', 'f'] then return .infinite negative
  if body = ['n', 'a', 'n'] then return .nan
  let isMark (c : Char) : Bool := c = 'e' || c = 'E'
  let (w, f) ← mantissa? (body.takeWhile fun c => !isMark c)
  let e ← match body.dropWhile fun c => !isMark c with
    | _ :: rest => exponent? rest
    | [] => if f.isEmpty then none else some 0
  match Decimal.ofDecimal? negative (Text.digitsValue (w ++ f)) (e - f.length) with
  | some x => return .float x
  | none => if negative then return .infinite true else none

/-- A date; the day must exist. -/
def date? (cs : List Char) : Option String :=
  match cs with
  | [a, b, c, d, '-', e, f, '-', g, h] => do
    if !([a, b, c, d, e, f, g, h].all Text.isDigit) then none
    let year := Text.digitsValue [a, b, c, d]
    let month := Text.digitsValue [e, f]
    let day := Text.digitsValue [g, h]
    if month < 1 ∨ 12 < month ∨ day < 1 ∨ Timestamp.daysIn year month < day then none
    return String.ofList cs
  | _ => none

def trimZeros (ds : List Char) : List Char := (ds.reverse.dropWhile (· = '0')).reverse

/-- The fraction of a second, in nine digits at most. -/
def secondFraction? : List Char → Option (List Char × List Char)
  | '.' :: rest =>
    let ds := rest.takeWhile Text.isDigit
    let kept := trimZeros (ds.take 9)
    if ds.isEmpty then none else some (if kept.isEmpty then [] else '.' :: kept, rest.dropWhile Text.isDigit)
  | cs => some ([], cs)

/-- Two digits for less than `limit`. -/
def isBelow (limit : Nat) (a b : Char) : Bool :=
  Text.isDigit a && Text.isDigit b && Text.digitsValue [a, b] < limit

/-- A time, and what follows it. -/
def time? (cs : List Char) : Option (List Char × List Char) :=
  match cs with
  | a :: b :: ':' :: c :: d :: ':' :: e :: f :: rest => do
    if !(isBelow 24 a b && isBelow 60 c d && isBelow 61 e f) then none
    let (fraction, rest) ← secondFraction? rest
    return ([a, b, ':', c, d, ':', e, f] ++ fraction, rest)
  | _ => none

/-- An offset from Universal Time at the end of a word; none at all makes a local time. -/
def offset? : List Char → Option (List Char)
  | [] => some []
  | ['Z'] => some ['Z']
  | ['z'] => some ['Z']
  | [s, a, b, ':', c, d] =>
    if !((s = '+' || s = '-') && isBelow 24 a b && isBelow 60 c d) then none
    else if [a, b, c, d].all (· = '0') then some ['+', '0', '0', ':', '0', '0']
    else some [s, a, b, ':', c, d]
  | _ => none

/-- A date, a time, or both with the mark `T` between them. -/
def dateTime? (cs : List Char) : Option String :=
  match date? (cs.take 10) with
  | none =>
    match time? cs with
    | some (t, []) => some (String.ofList t)
    | _ => none
  | some d =>
    match cs.drop 10 with
    | [] => some d
    | mark :: rest => do
      if !(mark = 'T' || mark = 't' || mark = ' ') then none
      let (t, rest) ← time? rest
      return d ++ "T" ++ String.ofList (t ++ (← offset? rest))

def isWordChar (c : Char) : Bool :=
  Text.isDigit c || Text.isLetter c || c = '+' || c = '-' || c = '_' || c = '.' || c = ':'

/-- The word at the front; a date takes in a time that follows after one blank. -/
def word (cs : List Char) : List Char × List Char :=
  let w := cs.takeWhile isWordChar
  match cs.dropWhile isWordChar with
  | ' ' :: rest =>
    let t := rest.takeWhile isWordChar
    if (date? w).isSome && !t.isEmpty then (w ++ ' ' :: t, rest.dropWhile isWordChar) else (w, ' ' :: rest)
  | rest => (w, rest)

def ofWord? (w : List Char) : Option Toml :=
  if w = "true".toList then some (.bool true)
  else if w = "false".toList then some (.bool false)
  else match integer? w, float? w, dateTime? w with
    | some n, _, _ => some (.number (.int n))
    | none, some x, _ => some (.number x)
    | none, none, some t => some (.text t)
    | none, none, none => none

end WorkflowCatalog.Toml
