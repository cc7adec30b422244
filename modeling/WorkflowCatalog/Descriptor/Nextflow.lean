import WorkflowCatalog.Descriptor.Basic
import WorkflowCatalog.Descriptor.Statement
import WorkflowCatalog.Path

/-!
# Nextflow

The primary descriptor is a configuration, which includes other configurations and names the main script.
Scripts include modules, whose paths may leave out the ending `.nf`.
-/
namespace WorkflowCatalog.Nextflow

open Statement

/-- `includeConfig` and a quoted path. -/
def includedConfig? (cs : List Char) : Option (String × List Char) := do
  let rest ← Text.dropMark? "includeConfig".toList (blanks cs)
  let (path, rest) ← quoted? (← someBlanks? rest)
  return (String.ofList (Text.trim path), rest)

/-- `include`, names in braces, `from` and a quoted path. -/
def includedModule? (cs : List Char) : Option (String × List Char) := do
  let rest ← Text.dropMark? "include".toList (blanks cs)
  let rest ← Text.dropMark? ['{'] (blanks rest)
  let (_, rest) := Text.cutAt '}' rest
  let rest ← Text.dropMark? "from".toList (blanks (← rest))
  let (path, rest) ← quoted? (blanks rest)
  return (String.ofList (Text.trim path), rest)

/-- `mainScript`, an equals sign and a quoted path. -/
def scriptSetting? (cs : List Char) : Option (String × List Char) := do
  let rest ← Text.dropMark? "mainScript".toList cs
  let rest ← Text.dropMark? ['='] (blanks rest)
  let (path, rest) ← quoted? (blanks rest)
  return (String.ofList (Text.trim path), rest)

/-- The script that a configuration names, or else `main.nf`. -/
def mainScript (config : String) : String := (first? scriptSetting? config).getD "main.nf"

def isConfig (path : String) : Bool := Text.endsWith ".config".toList path.toList

/-- The file of a module. -/
def modulePath (path : String) : String :=
  if Text.endsWith ".nf".toList path.toList || Path.isUrl path then path else path ++ ".nf"

def check (content : String) : Except DescriptorError Unit := do
  if (Text.trim content.toList).isEmpty then throw .emptyConfig
  Braces.checked "//" content

def imports (path content : String) : List ImportRef :=
  if isConfig path then (atLines includedConfig? content).map fun p => ⟨p, .nextflowConfig⟩
  else (atLines includedModule? content).map fun p => ⟨modulePath p, .nextflow⟩

/-- The imports of a file, to which the main script belongs if the file is the primary one. -/
def allImports (primary path content : String) : List ImportRef :=
  imports path content ++ if path = primary then [⟨mainScript content, .nextflow⟩] else []

end WorkflowCatalog.Nextflow
