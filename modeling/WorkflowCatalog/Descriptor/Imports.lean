import WorkflowCatalog.Ascending
import WorkflowCatalog.Descriptor.Basic
import WorkflowCatalog.Path
import WorkflowCatalog.SourceFile

/-!
# Following imports

Starting from the primary descriptor, files are fetched that it imports, then those that they import, and
so on, level by level up to a bound. No path is fetched twice, and the primary one not at all. Web
resources are left alone, and files that are not there are only noted.
-/
namespace WorkflowCatalog

/-- Files by the path they were imported by, or by their absolute path where that was taken. -/
structure ResolvedImports where
  files : List (String × SourceFile)
  missing : List String
  skippedUrls : List String
deriving DecidableEq, Repr

namespace ResolvedImports

def empty : ResolvedImports := ⟨[], [], []⟩

def hasKey (r : ResolvedImports) (key : String) : Bool := r.files.any fun f => f.1 == key

def addFile (r : ResolvedImports) (written : String) (f : SourceFile) : ResolvedImports :=
  let key := if r.hasKey written then f.absolutePath else written
  { r with files := Ascending.put Prod.fst (key, f) r.files }

end ResolvedImports

/-- The paths that have been asked for, what has been found, and the files whose imports come next. -/
structure Resolution where
  seen : List String
  resolved : ResolvedImports
  queue : List (String × String)
deriving DecidableEq, Repr

namespace Resolution

variable {m : Type → Type} [Monad m]

/-- Where an import leads from the file that has it. -/
def destination (importer written : String) : String := Path.resolve (Path.parent importer) written

/-- Follows one import of a file. -/
def follow (fetch : String → m (Option String)) (now : Timestamp) (importer : String) (r : Resolution)
    (i : ImportRef) : m Resolution := do
  if Path.isUrl i.path then
    return { r with resolved := { r.resolved with skippedUrls := r.resolved.skippedUrls ++ [i.path] } }
  let written := Path.dropFileScheme i.path
  let path := destination importer written
  if r.seen.contains path then return r
  let r := { r with seen := path :: r.seen }
  match ← fetch path with
  | none => return { r with resolved := { r.resolved with missing := r.resolved.missing ++ [written] } }
  | some text =>
    return { r with
      resolved := r.resolved.addFile written (.fetched now i.type written path text)
      queue := r.queue ++ [(path, text)] }

/-- Follows all imports of a file. -/
def followFile (extract : String → String → List ImportRef) (fetch : String → m (Option String)) (now : Timestamp)
    (r : Resolution) (file : String × String) : m Resolution :=
  (extract file.1 file.2).foldlM (follow fetch now file.1) r

/-- Goes on for as many levels. -/
def levels (extract : String → String → List ImportRef) (fetch : String → m (Option String)) (now : Timestamp) :
    Nat → Resolution → m Resolution
  | 0, r => pure r
  | depth + 1, r =>
    if r.queue.isEmpty then pure r
    else do
      let r ← r.queue.foldlM (followFile extract fetch now) { r with queue := [] }
      levels extract fetch now depth r

def start (primary content : String) : Resolution := ⟨[primary], .empty, [(primary, content)]⟩

end Resolution

/-- All files that a primary descriptor leads to within the bound. -/
def resolveImports {m : Type → Type} [Monad m] (extract : String → String → List ImportRef)
    (fetch : String → m (Option String)) (now : Timestamp) (depth : Nat) (path content : String) :
    m ResolvedImports := do
  let r ← Resolution.levels extract fetch now depth (Resolution.start (Path.normalize path) content)
  return r.resolved

end WorkflowCatalog
