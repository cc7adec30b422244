import WorkflowCatalog.Json.Reader
import WorkflowCatalog.SyncError

/-!
# Webhook events and git references

An event tells that a branch or tag was pushed or deleted. It names the reference in full.
-/
namespace WorkflowCatalog

/-- A branch or tag by its short name. -/
structure GitReference where
  type : ReferenceType
  name : String
deriving DecidableEq, Repr

namespace GitReference

def branchMark : List Char := "refs/heads/".toList

def tagMark : List Char := "refs/tags/".toList

/-- Kind and short name of a full reference, whatever the name is. -/
def split? (reference : List Char) : Option (ReferenceType × List Char) :=
  match Text.dropMark? branchMark reference with
  | some name => some (.branch, name)
  | none => (Text.dropMark? tagMark reference).map fun name => (.tag, name)

/-- A short name is not empty, and neither is any part of it between slashes. -/
def isName (name : List Char) : Bool := (Text.splitOn '/' name).all fun part => !part.isEmpty

def parse (reference : String) : Except SyncError GitReference :=
  match split? reference.toList with
  | some (type, name) =>
    if isName name then .ok ⟨type, String.ofList name⟩ else .error (.invalidReference reference)
  | none => .error (.invalidReference reference)

/-- The full reference. -/
def toText (r : GitReference) : String :=
  String.ofList (if r.type = .tag then tagMark else branchMark) ++ r.name

/-- The short name of a reference that may be given in full. -/
def short (reference : String) : String :=
  match split? reference.toList with
  | some (_, name) => String.ofList name
  | none => reference

end GitReference

inductive EventType | push | delete
deriving DecidableEq, Repr

def EventType.name : EventType → String
  | push => "PUSH"
  | delete => "DELETE"

def EventType.ofName? (s : String) : Option EventType := [push, delete].find? fun t => t.name == s

structure WebhookEvent where
  repository : String
  gitReference : String
  username : String
  installationId : String
  type : EventType
deriving DecidableEq, Repr

namespace WebhookEvent

def fields : List String := ["repository", "gitReference", "username", "installationId", "eventType"]

def ofJson? (j : Json) : Option WebhookEvent := do
  let r ← j.record? fields
  return {
    repository := ← r.required "repository" Json.text?
    gitReference := ← r.required "gitReference" Json.text?
    username := ← r.required "username" Json.text?
    installationId := ← r.required "installationId" Json.text?
    type := ← r.required "eventType" fun j => j.name?.bind EventType.ofName? }

def read? (text : String) : Option WebhookEvent := (Json.read? text).bind ofJson?

def toJson (e : WebhookEvent) : Json :=
  .object [("repository", .text e.repository), ("gitReference", .text e.gitReference),
    ("username", .text e.username), ("installationId", .text e.installationId),
    ("eventType", .text e.type.name)]

end WebhookEvent

end WorkflowCatalog
