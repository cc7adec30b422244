import WorkflowCatalog.Descriptor.Basic
import WorkflowCatalog.Manifest

/-!
# Services

A service has no descriptor but the manifest, and the files listed there are its other files.
-/
namespace WorkflowCatalog.Service

open Yaml (Value)

def check (content : String) : Except DescriptorError Unit :=
  match Value.read? content with
  | none => .error .malformed
  | some (.mapping _) => .ok ()
  | some _ => .error .manifestNotMapping

/-- The files that the services of a document list. -/
def files (document : Value) : List String :=
  let services := ((document.get? "services").bind Value.sequence?).getD []
  services.flatMap fun s => (((s.get? "files").bind Value.sequence?).getD []).filterMap Value.text?

def imports (path content : String) : List ImportRef :=
  if path ≠ Manifest.path then []
  else
    match Value.read? content with
    | some document => (files document).map fun p => ⟨p, .serviceFile⟩
    | none => []

end WorkflowCatalog.Service
