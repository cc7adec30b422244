import WorkflowCatalog.Decimal.Binary64

/-!
# Numbers of data files

An integer of any size, or a double with the values that are not finite.
-/
namespace WorkflowCatalog.Decimal

inductive Number
  | int (n : Int)
  | float (x : Binary64)
  | infinite (negative : Bool)
  | nan
deriving DecidableEq, Repr

/-- All digits, without an exponent, and no point after a whole number. -/
def Scaled.positional (s : Scaled) : String :=
  let text := toString s.digits
  let point : Int := text.length + s.scale
  if 0 ≤ s.scale then text ++ zeros s.scale.toNat
  else if 0 < point then
    String.ofList (text.toList.take point.toNat) ++ "." ++ String.ofList (text.toList.drop point.toNat)
  else "0." ++ zeros (-point).toNat ++ text

/-- The nearest integer, a half away from zero; nothing below zero. -/
def Binary64.round (x : Binary64) : Nat :=
  let (num, den) := x.ratio
  if x.negative then 0 else (2 * num + den) / (2 * den)

namespace Number

/-- Both zeros are the same number. -/
def same : Number → Number → Bool
  | .float x, .float y => x == y || (x.mantissa == 0 && y.mantissa == 0)
  | a, b => a == b

def positional : Number → String
  | .int n => toString n
  | .float x => (if x.negative then "-" else "") ++ x.shortest.positional
  | .infinite true => "-inf"
  | .infinite false => "inf"
  | .nan => "NaN"

def maxWord : Nat := Nat.pow 2 64 - 1

/-- A count of 64 bits: a float is rounded and kept within bounds, an integer must be within them. -/
def word? : Number → Option Nat
  | .int n => if 0 ≤ n ∧ n ≤ maxWord then some n.toNat else none
  | .float x => some (min x.round maxWord)
  | .infinite negative => some (if negative then 0 else maxWord)
  | .nan => some 0

end Number

end WorkflowCatalog.Decimal
