import WorkflowCatalog.EntryPath
import WorkflowCatalog.Version

/-!
# Failures of reconciliation

What can go wrong in a call, and how it is told to the user.
-/
namespace WorkflowCatalog

inductive SyncError
  | remoteFetch (repository reference what message : String)
  | invalidManifest (message : String)
  | unknownUser (username : String)
  | descriptorSyntax (path message : String)
  | frozenVersion (entry version : String)
  | invalidReference (reference : String)
  | incompleteListing (message : String)
  | catalog (message : String)
  | cancelled
deriving DecidableEq, Repr

namespace SyncError

/-- A failure of the catalog with the contexts it passed through, innermost first. -/
def ofContexts (contexts : List String) : SyncError := catalog (": ".intercalate contexts.reverse)

def message : SyncError → String
  | remoteFetch repository reference what message =>
    "failed to fetch " ++ what ++ " from " ++ repository ++ "@" ++ reference ++ ": " ++ message
  | invalidManifest message => "invalid .dockstore.yml: " ++ message
  | unknownUser username => "user " ++ username ++ " does not have a catalog account"
  | descriptorSyntax path message => path ++ ": " ++ message
  | frozenVersion entry version => "version " ++ version ++ " of " ++ entry ++ " is frozen and cannot be modified"
  | invalidReference reference => "invalid git reference: " ++ reference
  | incompleteListing message => "remote version listing for " ++ message ++ " is incomplete; nothing was removed"
  | catalog message => "catalog error: " ++ message
  | cancelled => "reconciliation cancelled"

/-- Whether the same call may succeed later. -/
def isRetryable : SyncError → Bool
  | remoteFetch .. | incompleteListing _ => true
  | _ => false

end SyncError

/-- Refuses a frozen version. -/
def Version.ensureMutable (v : Version) (path : EntryPath) : Except SyncError Unit :=
  if v.frozen then .error (.frozenVersion path.toText v.name) else .ok ()

end WorkflowCatalog
