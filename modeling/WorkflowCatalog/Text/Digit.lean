/-!
# Digits

Digits of radices up to sixteen, and the numbers that they stand for.
-/
namespace WorkflowCatalog.Text

def isDigit (c : Char) : Bool := '0' ≤ c && c ≤ '9'

/-- The number that decimal digits stand for. -/
def digitsValue (ds : List Char) : Nat := ds.foldl (fun n d => n * 10 + (d.toNat - 48)) 0

def hexDigit (n : Nat) : Char := if n < 10 then Char.ofNat (48 + n) else Char.ofNat (87 + n)

def hexValue? (c : Char) : Option Nat :=
  if isDigit c then some (c.toNat - 48)
  else if 'a' ≤ c && c ≤ 'f' then some (c.toNat - 87)
  else if 'A' ≤ c && c ≤ 'F' then some (c.toNat - 55)
  else none

def digitValue? (radix : Nat) (c : Char) : Option Nat := (hexValue? c).filter (· < radix)

/-- The number that the digits of a radix stand for; there is one digit at least. -/
def natural? (radix : Nat) (ds : List Char) : Option Nat :=
  if ds.isEmpty then none else ds.foldlM (fun n d => (digitValue? radix d).map (n * radix + ·)) 0

/-- The radix that the front of a number tells, and its digits. -/
def radix? : List Char → Option (Nat × List Char)
  | '0' :: 'x' :: ds => some (16, ds)
  | '0' :: 'o' :: ds => some (8, ds)
  | '0' :: 'b' :: ds => some (2, ds)
  | _ => none

/-- The character of a number in hexadecimal digits. -/
def character? (ds : List Char) : Option Char := do
  let n ← natural? 16 ds
  if h : n.isValidChar then some (Char.ofNatAux n h) else none

theorem hexValue?_hexDigit {n : Nat} (h : n < 16) : hexValue? (hexDigit n) = some n := by
  have : ∀ m : Fin 16, hexValue? (hexDigit m) = some m.val := by decide
  exact this ⟨n, h⟩

end WorkflowCatalog.Text
