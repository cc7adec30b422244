import WorkflowCatalog.Descriptor.Braces
import WorkflowCatalog.Language

/-!
# What descriptors say

The imports that a descriptor refers to, and why a descriptor may be no valid one of its language.
-/
namespace WorkflowCatalog

/-- A reference to another file, as it is written. -/
structure ImportRef where
  path : String
  type : FileType
deriving DecidableEq, Repr

inductive DescriptorError
  | emptyDescriptor
  | emptyConfig
  | unbalanced (i : Braces.Imbalance)
  | noBlock
  | malformed
  | notMapping
  | missingVersion
  | missingClass
  | unsupportedClass (name : String)
  | manifestNotMapping
deriving DecidableEq, Repr

namespace DescriptorError

/-- Said of a text that is not one document of YAML. -/
def yamlDetail : String := "not a single well-formed document"

def message : DescriptorError → String
  | emptyDescriptor => "descriptor is empty"
  | emptyConfig => "nextflow.config is empty"
  | unbalanced i => i.message
  | noBlock => "no workflow or task block found"
  | malformed => yamlDetail
  | notMapping => "CWL document must be a mapping"
  | missingVersion => "missing cwlVersion"
  | missingClass => "missing class"
  | unsupportedClass name => "unsupported class " ++ name
  | manifestNotMapping => "manifest must be a mapping"

end DescriptorError

def Braces.checked (comment text : String) : Except DescriptorError Unit :=
  match Braces.check comment text with
  | .ok () => .ok ()
  | .error i => .error (.unbalanced i)

end WorkflowCatalog
