import WorkflowCatalog.Keyed
import WorkflowCatalog.Text.Split
import WorkflowCatalog.Toml.Basic

/-!
# Layers of settings

A layer is a list of keys with values. A later layer wins, but a table is joined with the table that was
there before. A key may lead into tables with points, and the case of names does not matter.
-/
namespace WorkflowCatalog.Settings

/-- One step from a value to a part of it: a field of a table, or an item of a list. -/
inductive Step | field (name : String) | item
deriving DecidableEq, Repr

/-- The letters of ASCII and the Kelvin sign are all that becomes a letter of ASCII. -/
def lower (name : String) : String :=
  String.ofList (name.toList.map fun c => if c = '\u212A' then 'k' else c.toLower)

def isNameChar (c : Char) : Bool := Text.isLetter c || Text.isDigit c || c = ' ' || c = '_' || c = '-'

/-- The digits of a position in a list, and what follows the bracket after them. -/
def position? (cs : List Char) : Option (List Char) :=
  let ds := match cs with
    | '-' :: ds => ds
    | ds => ds
  match ds.dropWhile Text.isDigit with
  | ']' :: rest => if (ds.takeWhile Text.isDigit).isEmpty then none else some rest
  | _ => none

/-- The steps after a first name; the fuel bounds their number. -/
def steps? : Nat → List Char → Option (List Step)
  | _, [] => some []
  | 0, _ => none
  | fuel + 1, '.' :: rest => do
    let name := rest.takeWhile isNameChar
    if name.isEmpty then none
    return .field (String.ofList name) :: (← steps? fuel (rest.dropWhile isNameChar))
  | fuel + 1, '[' :: rest => do return .item :: (← steps? fuel (← position? rest))
  | _, _ => none

/-- Where a key leads to; one that cannot be taken apart is a name as it stands. -/
def stepsOf (key : String) : List Step :=
  let name := key.toList.takeWhile isNameChar
  let rest := key.toList.dropWhile isNameChar
  match if name.isEmpty then none else steps? rest.length rest with
  | some more => .field (String.ofList name) :: more
  | none => [.field key]

/-- The fields of a table; anything else has none. -/
def fieldsOf : Option Toml → List (String × Toml)
  | some (.table fields) => fields
  | _ => []

mutual

/-- What is there once a value is put over what was there before. -/
def overlay : Toml → Option Toml → Toml
  | .table fields, old => overlayFields fields (old.getD (.table []))
  | .array items, _ => .array items
  | .text t, _ => .text t
  | .number n, _ => .number n
  | .bool b, _ => .bool b

def overlayFields : List (String × Toml) → Toml → Toml
  | [], old => old
  | (name, v) :: rest, old =>
    let fields := fieldsOf (some old)
    overlayFields rest (.table (Keyed.upsert Prod.fst (lower name, overlay v (fields.lookup (lower name))) fields))

end

/-- Puts a value where the steps lead. No setting is a list, so the items of one are not kept. -/
def put (v : Toml) : List Step → Option Toml → Toml
  | [], old => overlay v old
  | .field name :: steps, old =>
    let fields := fieldsOf old
    .table (Keyed.upsert Prod.fst (lower name, put v steps (fields.lookup (lower name))) fields)
  | .item :: _, _ => .array []

/-- A layer over the layers before it. -/
def addLayer (below : Toml) (layer : List (String × Toml)) : Toml :=
  layer.foldl (fun t f => put f.2 (stepsOf f.1) (some t)) below

end WorkflowCatalog.Settings
