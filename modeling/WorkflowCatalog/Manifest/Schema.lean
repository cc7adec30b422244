import WorkflowCatalog.Yaml.Value

/-!
# The schema of manifests

What a manifest declares, as it is written, before any of it is checked. Fields that are not part of the
schema are passed over. Null stands for an empty list or mapping, and local tags are looked through.
-/
namespace WorkflowCatalog.Manifest

open Yaml (Value)

/-- An author by name, or by some of name, identifier and address. -/
inductive AuthorDraft
  | named (s : String)
  | details (name orcid email : Option String)
deriving DecidableEq, Repr

/-- The first thing known of the author. -/
def AuthorDraft.display? : AuthorDraft → Option String
  | named s => some s
  | details name orcid email => name.orElse fun _ => orcid.orElse fun _ => email

structure WorkflowDraft where
  name : Option String
  subclass : Option String
  primaryDescriptorPath : Option String
  testParameterFiles : List String
  publish : Option Bool
  authors : List AuthorDraft
  branches : List String
  tags : List String
deriving DecidableEq, Repr

structure ServiceDraft where
  name : Option String
  subclass : Option String
  files : List String
  publish : Option Bool
  authors : List AuthorDraft
  branches : List String
  tags : List String
deriving DecidableEq, Repr

structure Draft where
  workflows : List WorkflowDraft
  services : List ServiceDraft
deriving DecidableEq, Repr

namespace Draft

abbrev Fields := List (String × Value)

/-- The known fields of a mapping, each given once. All keys must be texts. -/
def fields? (known : List String) (v : Value) : Option Fields :=
  match v.untag with
  | .null => some []
  | .mapping pairs => do
    let keyed ← pairs.mapM fun p => p.1.text?.map fun k => (k, p.2)
    let found := keyed.filter fun f => known.contains f.1
    if (found.map (·.1)).Nodup then some found else none
  | _ => none

def bool? (v : Value) : Option Bool :=
  match v.untag with
  | .bool b => some b
  | _ => none

/-- A value or null. -/
def option? {α : Type} (read : Value → Option α) : Value → Option (Option α)
  | .null => some none
  | v => (read v).map some

def list? {α : Type} (read : Value → Option α) (v : Value) : Option (List α) :=
  match v.untag with
  | .null => some []
  | .sequence items => items.mapM read
  | _ => none

/-- A field, or what stands for it where it is missing. -/
def get? {α : Type} (fields : Fields) (name : String) (default : α) (read : Value → Option α) : Option α :=
  match fields.lookup name with
  | some v => read v
  | none => some default

mutual

def isTagless : Value → Bool
  | .tagged _ _ => false
  | .sequence items => allTagless items
  | .mapping pairs => pairsTagless pairs
  | _ => true

def allTagless : List Value → Bool
  | [] => true
  | v :: vs => isTagless v && allTagless vs

def pairsTagless : List (Value × Value) → Bool
  | [] => true
  | (k, v) :: ps => isTagless k && isTagless v && pairsTagless ps

end

/-- A field of an author may be given by name, or by its place among the fields. -/
def authorField? : Value → Option (Option String)
  | .text s => some (some s)
  | .number (.int 0) => some (some "name")
  | .number (.int 1) => some (some "orcid")
  | .number (.int 2) => some (some "email")
  | .number (.int (.ofNat _)) => some none
  | _ => none

/-- The fields of an author by name. Any of those known stands at most once. -/
def authorFields? (pairs : List (Value × Value)) : Option Fields := do
  let keyed ← pairs.mapM fun p => (authorField? p.1).map fun k => (k, p.2)
  let found := keyed.filterMap fun f => f.1.bind fun k =>
    if ["name", "orcid", "email"].contains k then some (k, f.2) else none
  if (found.map (·.1)).Nodup then some found else none

/-- An author has no tags anywhere. -/
def author? (v : Value) : Option AuthorDraft :=
  if !isTagless v then none
  else
    match v with
    | .text s => some (.named s)
    | .mapping pairs => do
      let fields ← authorFields? pairs
      return .details (← get? fields "name" none (option? Value.text?))
        (← get? fields "orcid" none (option? Value.text?)) (← get? fields "email" none (option? Value.text?))
    | _ => none

/-- Patterns for branches and for tags. -/
def filters? (v : Value) : Option (List String × List String) := do
  let fields ← fields? ["branches", "tags"] v
  return (← get? fields "branches" [] (list? Value.text?), ← get? fields "tags" [] (list? Value.text?))

def workflow? (v : Value) : Option WorkflowDraft := do
  let fields ← fields? ["name", "subclass", "primaryDescriptorPath", "testParameterFiles", "publish", "authors",
    "filters"] v
  let (branches, tags) ← get? fields "filters" ([], []) filters?
  return {
    name := ← get? fields "name" none (option? Value.text?)
    subclass := ← get? fields "subclass" none (option? Value.text?)
    primaryDescriptorPath := ← get? fields "primaryDescriptorPath" none (option? Value.text?)
    testParameterFiles := ← get? fields "testParameterFiles" [] (list? Value.text?)
    publish := ← get? fields "publish" none (option? bool?)
    authors := ← get? fields "authors" [] (list? author?)
    branches := branches
    tags := tags }

def service? (v : Value) : Option ServiceDraft := do
  let fields ← fields? ["name", "subclass", "files", "publish", "authors", "filters"] v
  let (branches, tags) ← get? fields "filters" ([], []) filters?
  return {
    name := ← get? fields "name" none (option? Value.text?)
    subclass := ← get? fields "subclass" none (option? Value.text?)
    files := ← get? fields "files" [] (list? Value.text?)
    publish := ← get? fields "publish" none (option? bool?)
    authors := ← get? fields "authors" [] (list? author?)
    branches := branches
    tags := tags }

/-- What a document declares, if it fits the schema. -/
def ofValue? (v : Value) : Option Draft := do
  let fields ← fields? ["workflows", "services"] v
  return {
    workflows := ← get? fields "workflows" [] (list? workflow?)
    services := ← get? fields "services" [] (list? service?) }

end Draft

end WorkflowCatalog.Manifest
