import WorkflowCatalog.Snapshot
import WorkflowCatalog.Yaml.Value

/-!
# Snapshot documents

A snapshot is written in YAML. A text is whatever its scalar spells, so that numbers need no quotes, and
a mapping or list that is left out is empty.
-/
namespace WorkflowCatalog.Snapshot

open Yaml (Node Linked Following)

abbrev Pairs := List (Node Nat × Node Nat)

def text (doc : Linked) (n : Node Nat) : Following String := do
  match ← doc.follow n with
  | .scalar _ s _ => return s
  | _ => failure

def items (doc : Linked) (n : Node Nat) : Following (List (Node Nat)) := do
  match ← doc.follow n with
  | .sequence _ ns => return ns
  | .scalar _ "" true => return []
  | _ => failure

def pairs (doc : Linked) (n : Node Nat) : Following Pairs := do
  match ← doc.follow n with
  | .mapping _ ps => return ps
  | .scalar _ "" true => return []
  | _ => failure

/-- The known fields of a record, each at most once. -/
def fields (doc : Linked) (known : List String) (n : Node Nat) : Following (List (String × Node Nat)) := do
  let keyed ← (← pairs doc n).mapM fun p => do return (← text doc p.1, p.2)
  let found := keyed.filter fun f => known.contains f.1
  if (found.map (·.1)).Nodup then return found else failure

/-- A mapping of texts to values; of several under one key the last counts. -/
def table {α : Type} (doc : Linked) (read : Node Nat → Following α) (n : Node Nat) :
    Following (List (String × α)) := do
  let read ← (← pairs doc n).mapM fun p => do return (← text doc p.1, ← read p.2)
  return Ascending.lastOf Prod.fst read

def required {α : Type} (fs : List (String × Node Nat)) (name : String) (read : Node Nat → Following α) :
    Following α :=
  match fs.lookup name with
  | some n => read n
  | none => failure

def defaulted {α : Type} (fs : List (String × Node Nat)) (name : String) (default : α)
    (read : Node Nat → Following α) : Following α :=
  match fs.lookup name with
  | some n => read n
  | none => return default

/-- A name, which may also be written as a local tag of nothing. -/
def referenceType (doc : Linked) (n : Node Nat) : Following ReferenceType := do
  match ← doc.follow n with
  | .scalar p s plain =>
    match Yaml.localTag? p with
    | some tag => if plain && (s.isEmpty || Yaml.Plain.isNull s) then liftM (ReferenceType.ofName? tag) else failure
    | none => liftM (ReferenceType.ofName? s)
  | _ => failure

def version (doc : Linked) (n : Node Nat) : Following SnapshotVersion := do
  let fs ← fields doc ["name", "reference_type", "commit_id", "files"] n
  return {
    name := ← required fs "name" (text doc)
    referenceType := ← defaulted fs "reference_type" .branch (referenceType doc)
    commitId := ← required fs "commit_id" (text doc)
    files := filesOf (← defaulted fs "files" [] (table doc (text doc))) }

def versions (doc : Linked) (n : Node Nat) : Following (List SnapshotVersion) := do
  let fs ← fields doc ["versions"] n
  defaulted fs "versions" [] fun n => do (← items doc n).mapM (version doc)

def ofDocument (doc : Linked) (n : Node Nat) : Following Snapshot := do
  let fs ← fields doc ["repositories"] n
  return ⟨← defaulted fs "repositories" [] (table doc (versions doc))⟩

/-- The snapshot of a text; of an empty one it is empty. -/
def read? (content : String) : Option Snapshot := do
  match ← Yaml.document? content with
  | none => return .empty
  | some n =>
    let doc ← Linked.ofNode? n
    let (s, _) ← (ofDocument doc doc.root).run (100 * n.events)
    return s

end WorkflowCatalog.Snapshot
