import WorkflowCatalog.Text.Split

/-!
# Points in time

A point in time is kept as its canonical text, in Universal Time, with the fraction of a second in three,
six or nine digits, or none. Texts with other offsets, blanks or short fields are read too.
-/
namespace WorkflowCatalog

namespace Timestamp

/-- Days from 1970-01-01 to a date; months before March count with the year before. -/
def daysOf (year : Int) (month day : Nat) : Int :=
  let y := if month ≤ 2 then year - 1 else year
  let era := Int.fdiv y 400
  let yearOfEra := y - era * 400
  let dayOfYear : Int := (153 * ((month + 9) % 12) + 2) / 5 + day - 1
  era * 146097 + yearOfEra * 365 + yearOfEra / 4 - yearOfEra / 100 + dayOfYear - 719468

/-- Year, month and day of a number of days from 1970-01-01. -/
def dateOf (days : Int) : Int × Nat × Nat :=
  let z := days + 719468
  let era := Int.fdiv z 146097
  let dayOfEra := (z - era * 146097).toNat
  let yearOfEra := (dayOfEra - dayOfEra / 1460 + dayOfEra / 36524 - dayOfEra / 146096) / 365
  let dayOfYear := dayOfEra - (365 * yearOfEra + yearOfEra / 4 - yearOfEra / 100)
  let shifted := (5 * dayOfYear + 2) / 153
  let day := dayOfYear - (153 * shifted + 2) / 5 + 1
  let month := if shifted < 10 then shifted + 3 else shifted - 9
  (era * 400 + yearOfEra + (if month ≤ 2 then 1 else 0), month, day)

def isLeap (year : Int) : Bool := year % 4 = 0 && (year % 100 ≠ 0 || year % 400 = 0)

def daysIn (year : Int) (month : Nat) : Nat :=
  if month = 2 then (if isLeap year then 29 else 28)
  else if month = 4 ∨ month = 6 ∨ month = 9 ∨ month = 11 then 30 else 31

/-- One digit at least and `most` at most. -/
def number? (most : Nat) (cs : List Char) : Option (Nat × List Char) :=
  let ds := (cs.take most).takeWhile Text.isDigit
  if ds.isEmpty then none else some (Text.digitsValue ds, cs.drop ds.length)

/-- A number of one or two digits after blanks. -/
def field? (cs : List Char) : Option (Nat × List Char) := number? 2 (cs.dropWhile Text.isBlank)

def year? (cs : List Char) : Option (Int × List Char) :=
  match cs.dropWhile Text.isBlank with
  | '-' :: rest => (number? rest.length rest).map fun r => (-(r.1 : Int), r.2)
  | '+' :: rest => (number? rest.length rest).map fun r => ((r.1 : Int), r.2)
  | rest => (number? 4 rest).map fun r => ((r.1 : Int), r.2)

def mark? (mark : Char) (cs : List Char) : Option (List Char) :=
  Text.dropMark? [mark] (cs.dropWhile Text.isBlank)

/-- Nanoseconds after a point; digits beyond the ninth do not count. -/
def fraction? (cs : List Char) : Option (Nat × List Char) :=
  match cs with
  | '.' :: rest =>
    let ds := rest.takeWhile Text.isDigit
    if ds.isEmpty then none
    else some (Text.digitsValue (ds.take 9) * Nat.pow 10 (9 - (ds.take 9).length), rest.dropWhile Text.isDigit)
  | _ => some (0, cs)

/-- Two digits at the front. -/
def pair? (cs : List Char) : Option (Nat × List Char) :=
  match cs with
  | a :: b :: rest => if Text.isDigit a && Text.isDigit b then some (Text.digitsValue [a, b], rest) else none
  | _ => none

/-- Seconds east of Universal Time. -/
def offset? (cs : List Char) : Option (Int × List Char) :=
  if (cs.take 3).map Char.toUpper = ['U', 'T', 'C'] then some (0, cs.drop 3)
  else
    match cs with
    | 'Z' :: rest => some (0, rest)
    | 'z' :: rest => some (0, rest)
    | sign :: rest => do
      let east ← if sign = '+' then some true else if sign = '-' ∨ sign = '\u2212' then some false else none
      let (hours, rest) ← pair? rest
      let (minutes, rest) ← pair? (rest.dropWhile fun c => c = ':' || Text.isBlank c)
      if 24 ≤ hours ∨ 60 ≤ minutes then none
      let seconds : Int := hours * 3600 + minutes * 60
      return (if east then seconds else -seconds, rest)
    | [] => none

def padded (width n : Nat) : String :=
  let ds := toString n
  String.ofList (List.replicate (width - ds.length) '0') ++ ds

def fractionText (nanos : Nat) : String :=
  if nanos = 0 then ""
  else if nanos % 1000000 = 0 then "." ++ padded 3 (nanos / 1000000)
  else if nanos % 1000 = 0 then "." ++ padded 6 (nanos / 1000)
  else "." ++ padded 9 nanos

def yearText (year : Int) : String :=
  if 0 ≤ year ∧ year ≤ 9999 then padded 4 year.toNat
  else (if year < 0 then "-" else "+") ++ padded 4 year.natAbs

/-- The last second of a minute may be one too many, and keeps its number. -/
def render (minutes : Int) (second nanos : Nat) : String :=
  let (year, month, day) := dateOf (Int.fdiv minutes 1440)
  let minute := (Int.fmod minutes 1440).toNat
  yearText year ++ "-" ++ padded 2 month ++ "-" ++ padded 2 day ++ "T" ++ padded 2 (minute / 60) ++ ":"
    ++ padded 2 (minute % 60) ++ ":" ++ padded 2 second ++ fractionText nanos ++ "Z"

/-- The canonical text of a date and time. -/
def canonical? (text : String) : Option String := do
  let (year, rest) ← year? text.toList
  let (month, rest) ← field? (← mark? '-' rest)
  let (day, rest) ← field? (← mark? '-' rest)
  let rest ← match rest with
    | c :: rest => if c = 'T' ∨ c = 't' ∨ c = ' ' then some rest else none
    | [] => none
  let (hour, rest) ← field? rest
  let (minute, rest) ← field? (← mark? ':' rest)
  let (second, rest) ← field? (← mark? ':' rest)
  let (nanos, rest) ← fraction? rest
  let (offset, rest) ← offset? (rest.dropWhile Text.isBlank)
  if !(rest.dropWhile Text.isBlank).isEmpty then none
  if month < 1 ∨ 12 < month ∨ day < 1 ∨ daysIn year month < day then none
  if 24 ≤ hour ∨ 60 ≤ minute ∨ 60 < second then none
  let minutes := daysOf year month day * 1440 + hour * 60 + minute - offset / 60
  let first := (dateOf (Int.fdiv minutes 1440)).1
  if year < -262143 ∨ 262142 < year ∨ first < -262143 ∨ 262142 < first then none
  return render minutes second nanos

end Timestamp

/-- A point in time by its canonical text. -/
structure Timestamp where
  text : String
  canonical : Timestamp.canonical? text = some text
deriving DecidableEq

namespace Timestamp

instance : Repr Timestamp := ⟨fun t _ => repr t.text⟩

def ofText? (text : String) : Option Timestamp :=
  (canonical? text).bind fun t => if h : canonical? t = some t then some ⟨t, h⟩ else none

theorem ofText?_text (t : Timestamp) : ofText? t.text = some t := by
  simp [ofText?, t.canonical]

end Timestamp

end WorkflowCatalog
