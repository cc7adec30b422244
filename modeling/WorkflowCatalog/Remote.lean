import WorkflowCatalog.Manifest
import WorkflowCatalog.Text.Utf8

/-!
# Remote repositories

A remote lists the versions of a repository and hands out files of a version. Either may fail, and a file
may not be there.
-/
namespace WorkflowCatalog

structure Remote where
  list : (repository : String) → Except SyncError (List RemoteVersion)
  file : (repository reference path : String) → Except SyncError (Option ByteArray)

namespace Remote

/-- The listed version of that name. -/
def describe (r : Remote) (repository reference : String) : Except SyncError (Option RemoteVersion) :=
  (r.list repository).map fun vs => vs.find? fun v => v.name == reference

def manifest (r : Remote) (repository reference : String) : Except SyncError (Option ByteArray) :=
  r.file repository reference Manifest.path

/-- A file as text, whatever its bytes are. -/
def text (r : Remote) (repository reference path : String) : Except SyncError (Option String) :=
  (r.file repository reference path).map fun bytes => bytes.map Text.ofBytes

end Remote

end WorkflowCatalog
