import WorkflowCatalog.Decimal.Number

/-!
# TOML values

A document is a table. A date or time stands for its canonical text. While a document is read, tables
remember how they came to be, for that decides what may still be added to them.
-/
namespace WorkflowCatalog

inductive Toml
  | text (t : String)
  | number (n : Decimal.Number)
  | bool (b : Bool)
  | array (items : List Toml)
  | table (fields : List (String × Toml))

namespace Toml

/-- How a table came to be: by its own header, by that of a table inside it, or by a key with points. -/
inductive Origin | header | implied | dotted
deriving DecidableEq, Repr

/-- A value, or a table that is still open. -/
inductive Node
  | value (v : Toml)
  | table (origin : Origin) (fields : List (String × Node))
  | tables (items : List (List (String × Node)))

mutual

def Node.toToml : Node → Toml
  | .value v => v
  | .table _ fields => .table (closeFields fields)
  | .tables items => .array (closeItems items)

def closeFields : List (String × Node) → List (String × Toml)
  | [] => []
  | (name, n) :: fields => (name, n.toToml) :: closeFields fields

def closeItems : List (List (String × Node)) → List Toml
  | [] => []
  | fields :: items => .table (closeFields fields) :: closeItems items

end

/-- The fields of a table that is still open. -/
abbrev Fields := List (String × Node)

/-- A value under its key, and the tables that lead to it. -/
structure Pair where
  path : List String
  key : String
  value : Toml

namespace Fields

/-- Replaces the field of that name, or adds one. -/
def set (name : String) (n : Node) : Fields → Fields
  | [] => [(name, n)]
  | f :: fs => if f.1 = name then (name, n) :: fs else f :: set name n fs

/-- Adds a value; a key with points leads only through tables that no header has opened. -/
def add? (key : String) (v : Toml) : List String → Fields → Option Fields
  | [], fs => if (fs.lookup key).isSome then none else some (set key (.value v) fs)
  | p :: ps, fs =>
    match fs.lookup p with
    | none => (add? key v ps []).map fun sub => set p (.table .dotted sub) fs
    | some (.table origin sub) =>
      if origin = .header ∨ (ps = [] ∧ origin ≠ .dotted) then none
      else (add? key v ps sub).map fun sub => set p (.table origin sub) fs
    | some (.tables items) =>
      match items.reverse with
      | last :: before =>
        if ps = [] then none
        else (add? key v ps last).map fun sub => set p (.tables (before.reverse ++ [sub])) fs
      | [] => none
    | some (.value _) => none

def addAll? (pairs : List Pair) (fs : Fields) : Option Fields :=
  pairs.foldlM (fun fs p => add? p.key p.value p.path fs) fs

/-- Opens the table of a header; only one that other headers implied may be there already. -/
def openTable? (key : String) (pairs : List Pair) (fs : Fields) : Option Fields :=
  match fs.lookup key with
  | none => (addAll? pairs []).map fun sub => set key (.table .header sub) fs
  | some (.table .implied sub) => (addAll? pairs sub).map fun sub => set key (.table .header sub) fs
  | some _ => none

/-- Opens one more table of a list of tables. -/
def openItem? (key : String) (pairs : List Pair) (fs : Fields) : Option Fields := do
  let sub ← addAll? pairs []
  match fs.lookup key with
  | none => return set key (.tables [sub]) fs
  | some (.tables items) => return set key (.tables (items ++ [sub])) fs
  | some _ => none

/-- Follows the path of a header; in a list of tables it leads to the last one. -/
def within? (f : Fields → Option Fields) : List String → Fields → Option Fields
  | [], fs => f fs
  | p :: ps, fs =>
    match fs.lookup p with
    | none => (within? f ps []).map fun sub => set p (.table .implied sub) fs
    | some (.table origin sub) => (within? f ps sub).map fun sub => set p (.table origin sub) fs
    | some (.tables items) =>
      match items.reverse with
      | last :: before => (within? f ps last).map fun sub => set p (.tables (before.reverse ++ [sub])) fs
      | [] => none
    | some (.value _) => none

end Fields

end Toml

end WorkflowCatalog
