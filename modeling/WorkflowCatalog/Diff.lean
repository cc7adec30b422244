import WorkflowCatalog.SyncError

/-!
# Comparing versions with a repository

Each version on record or listed by the repository is added, updated, left unchanged or removed. A frozen
version is always left as it is. A version is removed only after a complete look at the repository.
-/
namespace WorkflowCatalog

inductive DiffMode | push | fullSync
deriving DecidableEq, Repr

/-- What is known of the versions in a repository. Protected names are there, but it is unclear whether
they belong to the entry. -/
structure RemoteListing where
  versions : List RemoteVersion
  complete : Bool
  protectedNames : List String
deriving DecidableEq, Repr

def RemoteListing.ofVersions (vs : List RemoteVersion) : RemoteListing := ⟨vs, true, []⟩

structure VersionDiff where
  added : List RemoteVersion
  updated : List RemoteVersion
  unchanged : List String
  removed : List String
  frozen : List String
deriving DecidableEq, Repr

namespace VersionDiff

/-- The first listed version of each name. -/
def firstByName : List RemoteVersion → List RemoteVersion
  | [] => []
  | r :: rs => r :: (firstByName rs).filter fun s => s.name ≠ r.name

def find? (name : String) (vs : List Version) : Option Version := vs.find? fun v => v.name == name

/-- Whether a listed version changes the one on record, which is not frozen. -/
def moves (forced : List String) (r : RemoteVersion) (v : Version) : Bool :=
  v.commitId ≠ some r.commitId || forced.contains v.name

def isAdded (existing : List Version) (r : RemoteVersion) : Bool := (find? r.name existing).isNone

def isUpdated (existing : List Version) (forced : List String) (r : RemoteVersion) : Bool :=
  match find? r.name existing with
  | some v => !v.frozen && moves forced r v
  | none => false

def isKept (existing : List Version) (forced : List String) (r : RemoteVersion) : Bool :=
  match find? r.name existing with
  | some v => v.frozen || !moves forced r v
  | none => false

def isFrozen (existing : List Version) (r : RemoteVersion) : Bool :=
  match find? r.name existing with
  | some v => v.frozen
  | none => false

def isRemoved (listing : RemoteListing) (mode : DiffMode) (v : Version) : Bool :=
  mode = .fullSync && !v.frozen && !listing.protectedNames.contains v.name

def isEmpty (d : VersionDiff) : Bool := d.added.isEmpty && d.updated.isEmpty && d.removed.isEmpty

end VersionDiff

open VersionDiff in
/-- Fails only for a full comparison with a listing that is not complete. -/
def diff (existing : List Version) (listing : RemoteListing) (mode : DiffMode) (forced : List String) :
    Except SyncError VersionDiff :=
  if mode = .fullSync ∧ listing.complete = false then
    .error (.incompleteListing (toString listing.versions.length ++ " versions seen"))
  else
    let listed := firstByName listing.versions
    let absent := existing.filter fun v => !listing.versions.any fun r => r.name == v.name
    .ok
      { added := listed.filter (isAdded existing)
        updated := listed.filter (isUpdated existing forced)
        unchanged := (listed.filter (isKept existing forced)).map RemoteVersion.name
          ++ (absent.filter fun v => !isRemoved listing mode v).map Version.name
        removed := (absent.filter (isRemoved listing mode)).map Version.name
        frozen := (listed.filter (isFrozen existing)).map RemoteVersion.name
          ++ (absent.filter (·.frozen)).map Version.name }

end WorkflowCatalog
