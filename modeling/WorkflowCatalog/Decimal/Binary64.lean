import WorkflowCatalog.Text.Digit

/-!
# Binary floating point, read and written in decimal

A finite double is a signed integer below 2^53 times a power of two not below 2^-1074. Reading rounds
a decimal to the nearest double, a tie to the even one. Writing gives the fewest digits that read back,
and of those the nearest.
-/
namespace WorkflowCatalog.Decimal

structure Binary64 where
  negative : Bool
  mantissa : Nat
  exponent : Int
deriving DecidableEq, Repr

/-- A quotient rounded to the nearest integer, a tie to the even one. -/
def roundDiv (num den : Nat) : Nat :=
  let q := num / den
  let r := num % den
  if 2 * r < den then q else if den < 2 * r then q + 1 else if q % 2 = 0 then q else q + 1

def lowestExponent : Int := -1074

def highestExponent : Int := 971

/-- `num / den` in units of `2 ^ e`, rounded. -/
def units (num den : Nat) (e : Int) : Nat :=
  if 0 ≤ e then roundDiv num (den * Nat.pow 2 e.toNat) else roundDiv (num * Nat.pow 2 (-e).toNat) den

/-- The exponent at which the quotient has 53 bits, or the lowest there is. -/
def exponentOf (num den : Nat) : Int :=
  let guess : Int := (Nat.log2 num : Int) - Nat.log2 den - 52
  let small := if 0 ≤ guess then num < den * Nat.pow 2 (guess.toNat + 52)
    else num * Nat.pow 2 (-guess).toNat < den * Nat.pow 2 52
  max lowestExponent (if small then guess - 1 else guess)

/-- The double nearest to `num / den`, unless it is too large. -/
def nearest? (negative : Bool) (num den : Nat) : Option Binary64 :=
  if num = 0 then some ⟨negative, 0, lowestExponent⟩
  else
    let e := exponentOf num den
    let m := units num den e
    let (m, e) := if m = Nat.pow 2 53 then (Nat.pow 2 52, e + 1) else (m, e)
    if highestExponent < e then none else some ⟨negative, m, e⟩

/-- The double nearest to `digits · 10 ^ scale`; far beyond either end of the range no power is computed. -/
def ofDecimal? (negative : Bool) (digits : Nat) (scale : Int) : Option Binary64 :=
  let size : Int := Nat.log2 digits
  if digits ≠ 0 ∧ 1100 < size + 3 * scale ∧ 0 ≤ scale then none
  else if 0 ≤ scale then nearest? negative (if digits = 0 then 0 else digits * Nat.pow 10 scale.toNat) 1
  else if size + 3 * scale < -1200 then some ⟨negative, 0, lowestExponent⟩
  else nearest? negative digits (Nat.pow 10 (-scale).toNat)

/-- Digits and the power of ten that scales them. -/
structure Scaled where
  digits : Nat
  scale : Int
deriving DecidableEq, Repr

/-- The value, as a numerator over a denominator. -/
def Binary64.ratio (x : Binary64) : Nat × Nat :=
  if 0 ≤ x.exponent then (x.mantissa * Nat.pow 2 x.exponent.toNat, 1) else (x.mantissa, Nat.pow 2 (-x.exponent).toNat)

/-- Whether `s` reads back as `x`. -/
def Binary64.readsBack (x : Binary64) (s : Scaled) : Bool :=
  ofDecimal? x.negative s.digits s.scale == some x

/-- The lowest power of ten above the value. -/
def magnitude (num den : Nat) : Int :=
  let guess : Int := ((Nat.log2 num : Int) - Nat.log2 den) * 30103 / 100000
  let reaches (k : Int) : Bool := if 0 ≤ k then den * Nat.pow 10 k.toNat ≤ num else den ≤ num * Nat.pow 10 (-k).toNat
  if reaches (guess + 2) then guess + 3
  else if reaches (guess + 1) then guess + 2
  else if reaches guess then guess + 1
  else if reaches (guess - 1) then guess
  else guess - 1

/-- The neighbour of the value with `count` digits that reads back, the nearer one if both do. -/
def Binary64.withDigits? (x : Binary64) (count : Nat) : Option Scaled :=
  let (num, den) := x.ratio
  let scale := magnitude num den - count
  let num' := if 0 ≤ scale then num else num * Nat.pow 10 (-scale).toNat
  let den' := if 0 ≤ scale then den * Nat.pow 10 scale.toNat else den
  let below : Scaled := ⟨num' / den', scale⟩
  let above : Scaled := ⟨num' / den' + 1, scale⟩
  match x.readsBack below, x.readsBack above with
  | true, true => some (if roundDiv num' den' = below.digits then below else above)
  | true, false => some below
  | false, true => some above
  | false, false => none

def Scaled.dropZeros : Nat → Scaled → Scaled
  | 0, s => s
  | fuel + 1, s => if s.digits ≠ 0 ∧ s.digits % 10 = 0 then dropZeros fuel ⟨s.digits / 10, s.scale + 1⟩ else s

/-- Seventeen digits always read back. -/
def Binary64.shortest (x : Binary64) : Scaled :=
  if x.mantissa = 0 then ⟨0, 0⟩
  else
    match (List.range 17).findSome? fun i => x.withDigits? (i + 1) with
    | some s => s.dropZeros 20
    | none => ⟨0, 0⟩

/-- How a number is laid out: positional from `1e-5` up to `1e16`, scientific beyond. -/
structure Layout where
  lowest : Int
  highest : Int
deriving DecidableEq, Repr

def plainLayout : Layout := ⟨-5, 16⟩

def zeros (n : Nat) : String := String.ofList (List.replicate n '0')

/-- A point always follows the whole part of the positional form. -/
def Scaled.render (layout : Layout) (s : Scaled) : String :=
  let text := toString s.digits
  let count : Int := text.length
  let point := count + s.scale
  if s.digits = 0 then "0.0"
  else if 0 ≤ s.scale ∧ point ≤ layout.highest then text ++ zeros s.scale.toNat ++ ".0"
  else if 0 < point ∧ point ≤ layout.highest then
    String.ofList (text.toList.take point.toNat) ++ "." ++ String.ofList (text.toList.drop point.toNat)
  else if layout.lowest < point ∧ point ≤ 0 then "0." ++ zeros (-point).toNat ++ text
  else
    let fraction := String.ofList (text.toList.drop 1)
    String.ofList (text.toList.take 1) ++ (if fraction.isEmpty then "" else "." ++ fraction) ++ "e"
      ++ toString (point - 1)

def Binary64.render (x : Binary64) : String :=
  (if x.negative then "-" else "") ++ x.shortest.render plainLayout

/-- The decimal grammar: digits with an optional point, one digit at least, then an optional exponent. -/
def readDecimal? (negative : Bool) (cs : List Char) : Option (Option Binary64) :=
  let whole := cs.takeWhile Text.isDigit
  let rest := cs.dropWhile Text.isDigit
  let (fraction, rest) := match rest with
    | '.' :: more => (more.takeWhile Text.isDigit, more.dropWhile Text.isDigit)
    | _ => ([], rest)
  if whole.isEmpty && fraction.isEmpty then none
  else
    let digits := Text.digitsValue (whole ++ fraction)
    let shift : Int := -fraction.length
    match rest with
    | [] => some (ofDecimal? negative digits shift)
    | e :: more =>
      if e = 'e' ∨ e = 'E' then
        let (sign, more) : Int × List Char := match more with
          | '-' :: m => (-1, m)
          | '+' :: m => (1, m)
          | _ => (1, more)
        if more.isEmpty || !more.all Text.isDigit then none
        else some (ofDecimal? negative digits (shift + sign * Text.digitsValue more))
      else none

end WorkflowCatalog.Decimal
