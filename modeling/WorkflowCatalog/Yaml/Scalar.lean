import WorkflowCatalog.Decimal.Number

/-!
# Plain scalars

What a scalar without quotes stands for: null, a truth value, a number or a text. Digits after a leading
zero are text. An integer beyond 64 bits is refused, unless it is even beyond 128 bits and so a float.
-/
namespace WorkflowCatalog.Yaml

/-- The shortest text of a number. -/
def numberText : Decimal.Number → String
  | .int n => toString n
  | .float x => x.render
  | .infinite true => "-.inf"
  | .infinite false => ".inf"
  | .nan => ".nan"

inductive Plain
  | null
  | bool (b : Bool)
  | number (n : Decimal.Number)
  | text (s : String)
deriving DecidableEq, Repr

namespace Plain

def isNull (s : String) : Bool := s = "null" || s = "Null" || s = "NULL" || s = "~"

def bool? (s : String) : Option Bool :=
  if s = "true" ∨ s = "True" ∨ s = "TRUE" then some true
  else if s = "false" ∨ s = "False" ∨ s = "FALSE" then some false
  else none

def isSign (c : Char) : Bool := c = '+' || c = '-'

def dropSign (cs : List Char) : List Char :=
  match cs with
  | c :: rest => if isSign c then rest else cs
  | [] => []

/-- Digits that only look like a number: a leading zero and at least one digit more. -/
def isPadded (cs : List Char) : Bool :=
  match dropSign cs with
  | '0' :: rest => !rest.isEmpty && rest.all Text.isDigit
  | _ => false

/-- An integer that is not negative, its sign left out or positive. -/
def unsigned? (cs : List Char) : Option Nat :=
  let body := match cs with
    | '+' :: rest => rest
    | _ => cs
  match Text.radix? body with
  | some (radix, digits) => Text.natural? radix digits
  | none => if isPadded cs then none else Text.natural? 10 body

/-- The absolute value of an integer with a minus sign. -/
def negated? (cs : List Char) : Option Nat :=
  match cs with
  | '-' :: body =>
    match Text.radix? body with
    | some (radix, digits) => Text.natural? radix digits
    | none => if isPadded cs then none else Text.natural? 10 body
  | _ => none

/-- An integer that fits, one that is refused, or none. -/
inductive IntegerForm | fits (n : Int) | refused | none

def integerForm (cs : List Char) : IntegerForm :=
  match unsigned? cs, negated? cs with
  | some n, _ => if n < Nat.pow 2 64 then .fits n else if n < Nat.pow 2 128 then .refused else .none
  | none, some n => if n ≤ Nat.pow 2 63 then .fits (-n) else if n ≤ Nat.pow 2 127 then .refused else .none
  | none, none => .none

/-- A float that is neither infinite nor too large, or one of the special words. -/
def float? (cs : List Char) : Option Decimal.Number :=
  let s := String.ofList cs
  let body := match cs with
    | '+' :: rest => rest
    | _ => cs
  if cs.head? = some '+' ∧ (body.head?.map isSign).getD false then none
  else
    let b := String.ofList body
    if b = ".inf" ∨ b = ".Inf" ∨ b = ".INF" then some (.infinite false)
    else if s = "-.inf" ∨ s = "-.Inf" ∨ s = "-.INF" then some (.infinite true)
    else if s = ".nan" ∨ s = ".NaN" ∨ s = ".NAN" then some .nan
    else
      let read := match body with
        | '-' :: rest => Decimal.readDecimal? true rest
        | _ => Decimal.readDecimal? false body
      match read with
      | some (some x) => some (.float x)
      | _ => none

/-- Nothing for an integer that is refused. -/
def ofText? (s : String) : Option Plain :=
  if s.isEmpty || isNull s then some .null
  else
    match bool? s with
    | some b => some (.bool b)
    | none =>
      match integerForm s.toList with
      | .fits n => some (.number (.int n))
      | .refused => none
      | .none =>
        if isPadded s.toList then some (.text s)
        else match float? s.toList with
          | some n => some (.number n)
          | none => some (.text s)

end Plain

end WorkflowCatalog.Yaml
