import WorkflowCatalog.Text.Digit

/-!
# Reading bytes as text

Every byte sequence is read as text. A part that starts like the encoding of a character but breaks
off, and a byte that starts none, each become one replacement character.
-/
namespace WorkflowCatalog.Text

/-- What the bytes read so far still need: the value so far, the next byte's range, and how many follow it. -/
structure Begun where
  value : Nat
  low : UInt8
  high : UInt8
  after : Nat
deriving DecidableEq, Repr

inductive Lead | char (c : Char) | begun (p : Begun) | broken
deriving DecidableEq, Repr

def replacement : Char := '\uFFFD'

/-- How an encoded character may start; the second byte's range leaves out long forms and surrogates. -/
def lead (b : UInt8) : Lead :=
  let n := b.toNat
  if n < 0x80 then .char (Char.ofNat n)
  else if n < 0xC2 then .broken
  else if n < 0xE0 then .begun ⟨n - 0xC0, 0x80, 0xBF, 0⟩
  else if n = 0xE0 then .begun ⟨0, 0xA0, 0xBF, 1⟩
  else if n = 0xED then .begun ⟨0xD, 0x80, 0x9F, 1⟩
  else if n < 0xF0 then .begun ⟨n - 0xE0, 0x80, 0xBF, 1⟩
  else if n = 0xF0 then .begun ⟨0, 0x90, 0xBF, 2⟩
  else if n < 0xF4 then .begun ⟨n - 0xF0, 0x80, 0xBF, 2⟩
  else if n = 0xF4 then .begun ⟨4, 0x80, 0x8F, 2⟩
  else .broken

def decodeFrom : Option Begun → List UInt8 → List Char
  | none, [] => []
  | some _, [] => [replacement]
  | none, b :: bs =>
    match lead b with
    | .char c => c :: decodeFrom none bs
    | .begun p => decodeFrom (some p) bs
    | .broken => replacement :: decodeFrom none bs
  | some p, b :: bs =>
    if p.low ≤ b ∧ b ≤ p.high then
      let value := p.value * 64 + (b.toNat - 0x80)
      match p.after with
      | 0 => Char.ofNat value :: decodeFrom none bs
      | after + 1 => decodeFrom (some ⟨value, 0x80, 0xBF, after⟩) bs
    else
      match lead b with
      | .char c => replacement :: c :: decodeFrom none bs
      | .begun q => replacement :: decodeFrom (some q) bs
      | .broken => replacement :: replacement :: decodeFrom none bs

def ofBytes (bytes : ByteArray) : String := String.ofList (decodeFrom none bytes.toList)

/-- Two lower-case hexadecimal digits a byte. -/
def hex (bytes : List UInt8) : String :=
  String.ofList (bytes.flatMap fun b => [hexDigit (b.toNat / 16), hexDigit (b.toNat % 16)])

def ofHex? : List Char → Option (List UInt8)
  | [] => some []
  | a :: b :: rest => do
    let high ← hexValue? a
    let low ← hexValue? b
    return UInt8.ofNat (high * 16 + low) :: (← ofHex? rest)
  | [_] => none

end WorkflowCatalog.Text
