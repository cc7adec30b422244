import WorkflowCatalog.Json.Basic
import WorkflowCatalog.Text.Utf8

/-!
# Writing JSON

On one line without spaces, or indented by two spaces a level. Only the quote, the backslash and control
characters are escaped.
-/
namespace WorkflowCatalog.Json

def escape (c : Char) : List Char :=
  match c with
  | '"' => ['\\', '"']
  | '\\' => ['\\', '\\']
  | '\x08' => ['\\', 'b']
  | '\x0c' => ['\\', 'f']
  | '\n' => ['\\', 'n']
  | '\r' => ['\\', 'r']
  | '\t' => ['\\', 't']
  | c =>
    if c.toNat < 0x20 then
      ['\\', 'u', '0', '0', Text.hexDigit (c.toNat / 16), Text.hexDigit (c.toNat % 16)]
    else [c]

def quoted (s : String) : List Char := '"' :: s.toList.flatMap escape ++ ['"']

/-- What stands between the parts of an array or object. -/
structure Layout where
  newline : Nat → List Char
  colon : List Char

def compact : Layout := ⟨fun _ => [], [':']⟩

def indented : Layout := ⟨fun level => '\n' :: List.replicate (2 * level) ' ', [':', ' ']⟩

mutual

def write (layout : Layout) (level : Nat) : Json → List Char
  | .null => "null".toList
  | .bool b => (if b then "true" else "false").toList
  | .number digits => digits.toList
  | .text s => quoted s
  | .unpaired => "null".toList
  | .array [] => "[]".toList
  | .array (j :: js) =>
    '[' :: layout.newline (level + 1) ++ write layout (level + 1) j ++ writeItems layout level js
  | .object [] => ['{', '}']
  | .object ((k, j) :: fields) =>
    '{' :: layout.newline (level + 1) ++ quoted k ++ layout.colon ++ write layout (level + 1) j
      ++ writeFields layout level fields

def writeItems (layout : Layout) (level : Nat) : List Json → List Char
  | [] => layout.newline level ++ [']']
  | j :: js => ',' :: layout.newline (level + 1) ++ write layout (level + 1) j ++ writeItems layout level js

def writeFields (layout : Layout) (level : Nat) : List (String × Json) → List Char
  | [] => layout.newline level ++ ['}']
  | (k, j) :: fields =>
    ',' :: layout.newline (level + 1) ++ quoted k ++ layout.colon ++ write layout (level + 1) j
      ++ writeFields layout level fields

end

def oneLine (j : Json) : String := String.ofList (write compact 0 j)

def pretty (j : Json) : String := String.ofList (write indented 0 j)

end WorkflowCatalog.Json
