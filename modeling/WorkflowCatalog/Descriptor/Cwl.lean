import WorkflowCatalog.Descriptor.Basic
import WorkflowCatalog.Yaml.Value

/-!
# CWL

A descriptor is a YAML mapping that names its version and class. The texts under certain keys, wherever
they occur, refer to other files, up to a `#` that points into the file.
-/
namespace WorkflowCatalog.Cwl

open Yaml (Value)

def importKeys : List String := ["run", "$import", "$include", "$mixin"]

def classes : List String := ["Workflow", "CommandLineTool", "ExpressionTool"]

def isImportKey (key : Value) : Bool :=
  match key.text? with
  | some k => importKeys.contains k
  | none => false

/-- The file that a reference points to or into. -/
def target (reference : String) : String := String.ofList (Text.trim (Text.cutAt '#' reference.toList).1)

mutual

/-- What the texts under import keys refer to, in the order of the document. -/
def references : Value → List String
  | .mapping pairs => referencesOfPairs pairs
  | .sequence items => referencesOfItems items
  | .tagged _ v => references v
  | _ => []

def referencesOfItems : List Value → List String
  | [] => []
  | v :: vs => references v ++ referencesOfItems vs

def referencesOfPairs : List (Value × Value) → List String
  | [] => []
  | (k, v) :: ps =>
    (match isImportKey k, v.text? with
      | true, some s => [s]
      | _, _ => references v) ++ referencesOfPairs ps

end

def targets (document : Value) : List String :=
  (((references document).map target).filter fun t => !t.isEmpty).eraseDups

def check (content : String) : Except DescriptorError Unit :=
  match Value.read? content with
  | none => .error .malformed
  | some (.mapping pairs) =>
    if ((Value.lookup "cwlVersion" pairs).bind Value.text?).isNone then .error .missingVersion
    else
      match (Value.lookup "class" pairs).bind Value.text? with
      | some c => if classes.contains c then .ok () else .error (.unsupportedClass c)
      | none => .error .missingClass
  | some _ => .error .notMapping

/-- A text that is no document refers to nothing. -/
def imports (content : String) : List ImportRef :=
  match Value.read? content with
  | some document => (targets document).map fun p => ⟨p, .cwl⟩
  | none => []

end WorkflowCatalog.Cwl
