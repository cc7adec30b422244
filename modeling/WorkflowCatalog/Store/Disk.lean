import WorkflowCatalog.Store.Document

/-!
# The catalog on disk

The store is kept in memory and in a file of its directory. Saving writes the whole document beside the
file, where it is staged, and then moves it into place, so the file always holds a complete document. When a
save fails, the file stays as it was, and an entry that was put into the store for it is taken back. What
is left staged is never read.
-/
namespace WorkflowCatalog

/-- The step of a save at which it may fail. A document that cannot be written may be left in part. -/
inductive SaveFault | directory | write (left : Option String := none) | replace
deriving DecidableEq, Repr

/-- A store in memory, and what its directory holds: the file, and what is staged beside it. -/
structure DiskCatalog where
  directory : String
  store : Store
  file : Option String
  staged : Option String := none
deriving DecidableEq, Repr

namespace DiskCatalog

def fileName : String := "catalog.json"

def filePath (directory : String) : String := directory ++ "/" ++ fileName

def stagingPath (directory : String) : String := filePath directory ++ ".tmp"

/-- The catalog of a directory, given the text of its file; without a file it is empty. -/
def load (directory : String) (file : Option String) : Except String DiskCatalog :=
  match file with
  | none => .ok { directory := directory, store := .empty, file := none }
  | some text =>
    match Store.read? text with
    | some s => .ok { directory := directory, store := s, file := some text }
    | none => .error ("Failed to parse " ++ filePath directory)

def faultMessage (directory : String) : SaveFault → String
  | .directory => "Failed to create directory " ++ directory
  | .write _ => "Failed to write " ++ stagingPath directory
  | .replace => "Failed to replace " ++ filePath directory

/-- Stages the document and moves it into place, up to the step that fails; together with the message of the
failure, if there is one. -/
def attempt (c : DiskCatalog) (fault : Option SaveFault) : DiskCatalog × Option String :=
  let document := some c.store.write
  let failure := fault.map (faultMessage c.directory)
  match fault with
  | some .directory => (c, failure)
  | some (.write left) => ({ c with staged := left }, failure)
  | some .replace => ({ c with staged := document }, failure)
  | none => ({ c with file := document, staged := none }, failure)

/-- Writes the store to the file, unless a step fails. -/
def save (c : DiskCatalog) (fault : Option SaveFault) : Except String DiskCatalog :=
  match c.attempt fault with
  | (saved, none) => .ok saved
  | (_, some message) => .error message

/-- Puts an entry into the store and saves it. The store is put back if that fails, and the failure returned. -/
def saveEntry (c : DiskCatalog) (e : Entry) (fault : Option SaveFault) : DiskCatalog × Option SyncError :=
  let previous := c.store
  match attempt { c with store := c.store.save e } fault with
  | (saved, none) => (saved, none)
  | (left, some message) => ({ left with store := previous }, some (.catalog message))

/-- Registers an account in memory only. -/
def addUser (c : DiskCatalog) (now : Timestamp) (username : String) : DiskCatalog :=
  { c with store := c.store.addUser now username }

/-- The catalog of the same directory, as its file has it. -/
def reopen (c : DiskCatalog) : Except String DiskCatalog :=
  (load c.directory c.file).map fun opened => { opened with staged := c.staged }

end DiskCatalog

end WorkflowCatalog
