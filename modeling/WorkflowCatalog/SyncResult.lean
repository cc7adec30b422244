import WorkflowCatalog.EntryPath

/-!
# Results of reconciliation

What a call did to one entry, by the names of its versions. A result without an entry tells how the call
as a whole ended.
-/
namespace WorkflowCatalog

structure SyncResult where
  entry : Option String
  added : List String
  updated : List String
  removed : List String
  skippedFrozen : List String
  success : Bool
  message : Option String
deriving DecidableEq, Repr

namespace SyncResult

/-- Success without any change. -/
def nothing : SyncResult := ⟨none, [], [], [], [], true, none⟩

def forEntry (p : EntryPath) : SyncResult := { nothing with entry := some p.toText }

def callFailure (message : String) : SyncResult := { nothing with success := false, message := some message }

/-- Marks the result as failed; of several messages the first is kept. -/
def fail (r : SyncResult) (message : String) : SyncResult :=
  { r with success := false, message := some (r.message.getD message) }

def hasChanges (r : SyncResult) : Bool := !(r.added.isEmpty && r.updated.isEmpty && r.removed.isEmpty)

end SyncResult

end WorkflowCatalog
