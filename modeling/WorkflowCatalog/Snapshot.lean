import WorkflowCatalog.Ascending
import WorkflowCatalog.Keyed
import WorkflowCatalog.Remote
import WorkflowCatalog.Webhook

/-!
# Snapshots of repositories

A snapshot holds versions of repositories with their files, and serves them as a remote. A version may be
asked for by its short name or by its full reference.
-/
namespace WorkflowCatalog

structure SnapshotVersion where
  name : String
  referenceType : ReferenceType
  commitId : String
  files : List (String × String)
deriving DecidableEq, Repr

/-- Repositories in the order of their names, versions in the order of listing, files in that of paths. -/
structure Snapshot where
  repositories : List (String × List SnapshotVersion)
deriving DecidableEq, Repr

namespace Snapshot

def empty : Snapshot := ⟨[]⟩

/-- Files under their canonical paths; of several with one path the last counts. -/
def filesOf (pairs : List (String × String)) : List (String × String) :=
  Ascending.lastOf Prod.fst (pairs.map fun p => (Path.normalize p.1, p.2))

def versions? (s : Snapshot) (repository : String) : Option (List SnapshotVersion) :=
  s.repositories.lookup repository

/-- Replaces the first version of the same name, or adds one at the end of the listing. -/
def setVersion (s : Snapshot) (repository : String) (v : SnapshotVersion) : Snapshot :=
  let versions := Keyed.upsert SnapshotVersion.name v ((s.versions? repository).getD [])
  ⟨Ascending.put Prod.fst (repository, versions) s.repositories⟩

def removeVersion (s : Snapshot) (repository name : String) : Snapshot :=
  ⟨s.repositories.map fun r => if r.1 = repository then (r.1, r.2.filter fun v => v.name ≠ name) else r⟩

def repository (s : Snapshot) (name : String) : Except SyncError (List SnapshotVersion) :=
  match s.versions? name with
  | some vs => .ok vs
  | none => .error (.remoteFetch name "*" "repository" "not found in snapshot")

def list (s : Snapshot) (repository : String) : Except SyncError (List RemoteVersion) :=
  (s.repository repository).map fun vs => vs.map fun v => ⟨v.name, v.referenceType, v.commitId, none⟩

def file (s : Snapshot) (repository reference path : String) : Except SyncError (Option ByteArray) := do
  let versions ← s.repository repository
  match versions.find? fun v => v.name == GitReference.short reference with
  | some v => return (v.files.lookup (Path.normalize path)).map String.toUTF8
  | none => throw (.remoteFetch repository reference path "unknown reference")

def remote (s : Snapshot) : Remote := ⟨s.list, s.file⟩

end Snapshot

end WorkflowCatalog
