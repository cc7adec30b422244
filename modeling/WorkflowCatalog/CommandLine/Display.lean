import WorkflowCatalog.Descriptor.Resolver
import WorkflowCatalog.Manifest
import WorkflowCatalog.Store
import WorkflowCatalog.SyncResult

/-!
# What is shown

The lines that tell of entries, results, manifests and accounts.
-/
namespace WorkflowCatalog

def EntryKind.title : EntryKind → String
  | workflow => "Workflow"
  | service => "Service"

def Language.title : Language → String
  | cwl => "Cwl"
  | wdl => "Wdl"
  | nextflow => "Nextflow"
  | service => "Service"

def ReferenceType.title : ReferenceType → String
  | branch => "Branch"
  | tag => "Tag"
  | notApplicable => "NotApplicable"

def Category.title : Category → String
  | manifest => "Manifest"
  | descriptor l => "Descriptor(" ++ l.title ++ ")"
  | testParameters => "TestParameterFile"
  | imports => "Imports"

namespace CommandLine

def resultLines (r : SyncResult) : List String :=
  [(if r.success then "OK " else "FAILED ") ++ r.entry.getD "(call)"]
    ++ r.added.map ("  + " ++ ·) ++ r.updated.map ("  ~ " ++ ·) ++ r.removed.map ("  - " ++ ·)
    ++ r.skippedFrozen.map (fun name => "  = " ++ name ++ " (frozen)")
    ++ r.message.toList.map ("  " ++ ·)

def entryLine (e : Entry) : String :=
  e.path.toText ++ "  " ++ e.language.label ++ "  " ++ toString e.versions.length ++ " version(s)"

def listLines (entries : List Entry) : List String :=
  if entries.isEmpty then ["No entries cataloged."] else entries.map entryLine

def versionLines (e : Entry) (v : Version) : List String :=
  let primary := SourceFile.primary? e.language.primaryType (v.effectivePath e.defaultDescriptorPath) v.sourceFiles
  let test := e.language.testType?.bind fun t => SourceFile.testParameters? t v.sourceFiles
  ["  " ++ v.name ++ " [" ++ v.referenceType.title ++ "] " ++ v.commitId.getD "-" ++ " "
      ++ (if v.isValid then "valid" else "invalid") ++ (if v.frozen then " frozen" else "")
      ++ " (" ++ toString v.sourceFiles.length ++ " files)",
    "    primary: " ++ ((primary.map SourceFile.absolutePath).getD "none")]
    ++ test.toList.map (fun f => "    test parameters: " ++ f.absolutePath)
    ++ (v.validations.filter fun j => !j.isValid).map fun j => "    " ++ j.category.title ++ ": " ++ j.message

def entryLines (e : Entry) : List String :=
  [e.path.toText ++ " (" ++ e.language.label ++ ", " ++ e.kind.title ++ ")",
      "  descriptor: " ++ e.defaultDescriptorPath]
    ++ (if e.published then ["  published"] else [])
    ++ (if e.authors.isEmpty then [] else ["  authors: " ++ ", ".intercalate e.authors])
    ++ e.versions.flatMap (versionLines e)

def declarationLines (d : Declaration) : List String :=
  ["  " ++ d.kind.name ++ " " ++ d.name.getD "<unnamed>" ++ " (" ++ d.language.label ++ ") "
      ++ d.primaryDescriptorPath]
    ++ d.testParameterFiles.map ("    test: " ++ ·)
    ++ (if d.filters.isEmpty then [] else ["    filtered by branch/tag patterns"])

def manifestLines (path : String) (m : Manifest) : List String :=
  (path ++ " is valid (version " ++ m.version ++ ")") :: m.entries.flatMap declarationLines

/-- An account with the day of its registration. -/
def userLine (u : User) : String :=
  u.username ++ "  (since " ++ String.ofList (Text.cutAt 'T' u.createdAt.text.toList).1 ++ ")"

def userLines (users : List User) : List String :=
  if users.isEmpty then ["No users registered. Use 'workflow-sync user add <name>' to add one."]
  else users.map userLine

end CommandLine

end WorkflowCatalog
