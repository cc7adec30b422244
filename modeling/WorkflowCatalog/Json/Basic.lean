/-!
# JSON documents

Objects keep the order and the repetitions of their fields. A number is kept as it is written, since
no field of a stored document is one. A string with an escape for half a surrogate pair is no text, but
still a string that a reader may skip.

Records are read from objects by name, or from arrays by position.
-/
namespace WorkflowCatalog

inductive Json
  | null
  | bool (b : Bool)
  | number (digits : String)
  | text (s : String)
  | unpaired
  | array (items : List Json)
  | object (fields : List (String × Json))
deriving Repr, Inhabited

namespace Json

def text? : Json → Option String
  | .text s => some s
  | _ => none

def bool? : Json → Option Bool
  | .bool b => some b
  | _ => none

def array? : Json → Option (List Json)
  | .array items => some items
  | _ => none

/-- The first field of that name. -/
def field? (name : String) : Json → Option Json
  | .object fields => fields.lookup name
  | _ => none

/-- `null` stands for an absent value. -/
def option? {α : Type} (read : Json → Option α) : Json → Option (Option α)
  | .null => some none
  | j => (read j).map some

def list? {α : Type} (read : Json → Option α) (j : Json) : Option (List α) :=
  j.array?.bind (·.mapM read)

def ofOption {α : Type} (write : α → Json) : Option α → Json
  | none => .null
  | some a => write a

def ofList {α : Type} (write : α → Json) (xs : List α) : Json := .array (xs.map write)

/-- The values of a record's fields; in a positional record every missing one comes last. -/
structure Record where
  positional : Bool
  values : List (String × Json)

/-- Unknown fields are passed over; a repeated field, or one value too many, is refused. -/
def record? (names : List String) : Json → Option Record
  | .object fields =>
    let known := fields.filter fun f => names.contains f.1
    if (known.map (·.1)).Nodup then some ⟨false, known⟩ else none
  | .array items => if items.length ≤ names.length then some ⟨true, names.zip items⟩ else none
  | _ => none

namespace Record

def required {α : Type} (r : Record) (name : String) (read : Json → Option α) : Option α :=
  (r.values.lookup name).bind read

/-- By name, a missing value is absent; by position it is an error. -/
def optional {α : Type} (r : Record) (name : String) (read : Json → Option α) : Option (Option α) :=
  match r.values.lookup name with
  | some j => j.option? read
  | none => if r.positional then none else some none

def defaulted {α : Type} (r : Record) (name : String) (default : α) (read : Json → Option α) : Option α :=
  match r.values.lookup name with
  | some j => read j
  | none => some default

end Record

/-- One of several names, written as a text or as an object that maps it to `null`. -/
def name? : Json → Option String
  | .text s => some s
  | .object [(s, .null)] => some s
  | _ => none

end Json

end WorkflowCatalog
