import WorkflowCatalog.Manifest.Filter
import WorkflowCatalog.Manifest.Schema
import WorkflowCatalog.Path
import WorkflowCatalog.SyncError

/-!
# Manifests

A manifest stands at the root of a repository and declares its workflows, and one service at most. All
names in it are distinct, a missing one counting as a name, since each makes an address of its own.
-/
namespace WorkflowCatalog

/-- What a manifest says of one entry. -/
structure Declaration where
  kind : EntryKind
  name : Option String
  language : Language
  serviceSubclass : Option String
  primaryDescriptorPath : String
  testParameterFiles : List String
  files : List String
  publish : Option Bool
  authors : List String
  filters : RefFilter
deriving DecidableEq, Repr

structure Manifest where
  version : String
  entries : List Declaration
deriving DecidableEq, Repr

/-- Why a manifest was refused. Workflows without a name are shown by their place. -/
inductive ManifestError
  | malformed
  | notMapping
  | missingVersion
  | unsupportedVersion (version : String)
  | schema
  | nothingDeclared
  | severalServices
  | badName (kind : EntryKind) (name : String)
  | repeatedWorkflow (name : Option String)
  | serviceTakesName (name : Option String)
  | missingField (label field : String)
  | unknownSubclass (label subclass : String)
  | relativePath (label path : String)
  | badPattern (e : PatternError)
deriving DecidableEq, Repr

namespace ManifestError

/-- Said of a text that is not one document of YAML. -/
def yamlDetail : String := "not a single well-formed document"

def schemaDetail : String := "a field does not have the form that it should have"

def patternDetail : String := "the pattern cannot be read"

def supportedVersion : String := "1.2"

def message : ManifestError → String
  | malformed => "malformed YAML: " ++ yamlDetail
  | notMapping => "top level must be a mapping"
  | missingVersion => "missing required key 'version'"
  | unsupportedVersion v => "unsupported version " ++ v ++ ", expected " ++ supportedVersion
  | schema => "schema error: " ++ schemaDetail
  | nothingDeclared => "no workflows or services declared"
  | severalServices => "at most one service may be declared"
  | badName kind name =>
    kind.name ++ " name '" ++ name ++ "' may only contain letters, digits, '-' and '_'"
  | repeatedWorkflow (some name) => "workflow name '" ++ name ++ "' is declared more than once"
  | repeatedWorkflow none => "more than one unnamed workflow is declared"
  | serviceTakesName (some name) => "service name '" ++ name ++ "' is already used by a workflow"
  | serviceTakesName none => "an unnamed service and an unnamed workflow are both declared"
  | missingField label field => label ++ ": missing required key '" ++ field ++ "'"
  | unknownSubclass label subclass => label ++ ": unknown subclass '" ++ subclass ++ "'"
  | relativePath label path => label ++ ": primaryDescriptorPath '" ++ path ++ "' must be absolute"
  | badPattern (.regex pattern) => "invalid filter regex " ++ pattern ++ ": " ++ patternDetail
  | badPattern (.glob pattern) => "invalid filter glob " ++ pattern ++ ": " ++ patternDetail

def toSyncError (e : ManifestError) : SyncError := .invalidManifest e.message

end ManifestError

namespace Manifest

/-- Where the manifest of a repository is. -/
def path : String := "/.dockstore.yml"

/-- The first declaration of that name. -/
def entry? (m : Manifest) (name : Option String) : Option Declaration := m.entries.find? fun d => d.name == name

/-- The version as a text; numbers are written the shortest way. -/
def versionText? : Yaml.Value → Option String
  | .text s => some (String.ofList (Text.trim s.toList))
  | .number n => some (Yaml.numberText n)
  | _ => none

def isNameMark (c : Char) : Bool := c = '-' || c = '_'

def isNameChar (c : Char) : Bool := Text.isLetter c || Text.isDigit c

/-- Runs of letters and digits joined by single marks; `joined` tells that a run must still come. -/
def isNameFrom (joined : Bool) : List Char → Bool
  | [] => !joined
  | c :: cs => if isNameChar c then isNameFrom false cs else isNameMark c && !joined && isNameFrom true cs

def isName (name : String) : Bool := isNameFrom true name.toList

/-- Refuses a name that is malformed or taken. -/
def checkName (kind : EntryKind) (name : Option String) (taken : List (Option String)) :
    Except ManifestError Unit := do
  match name with
  | some n => if !isName n then throw (.badName kind n)
  | none => pure ()
  if taken.contains name then
    throw (if kind = .workflow then .repeatedWorkflow name else .serviceTakesName name)

def required (label field : String) (value : Option String) : Except ManifestError String :=
  match value with
  | some s => .ok s
  | none => .error (.missingField label field)

def filter (branches tags : List String) : Except ManifestError RefFilter :=
  match RefFilter.ofTexts branches tags with
  | .ok f => .ok f
  | .error e => .error (.badPattern e)

def workflow (index : Nat) (taken : List (Option String)) (w : WorkflowDraft) :
    Except ManifestError Declaration := do
  let label := w.name.getD ("workflows[" ++ toString index ++ "]")
  checkName .workflow w.name taken
  let subclass ← required label "subclass" w.subclass
  let language ← match Language.ofSubclass? subclass with
    | some l => pure l
    | none => throw (.unknownSubclass label subclass)
  let primary ← required label "primaryDescriptorPath" w.primaryDescriptorPath
  if !Path.isAbsolute primary then throw (.relativePath label primary)
  let filters ← filter w.branches w.tags
  return {
    kind := .workflow
    name := w.name
    language := language
    serviceSubclass := none
    primaryDescriptorPath := Path.normalize primary
    testParameterFiles := w.testParameterFiles.map Path.normalize
    files := []
    publish := w.publish
    authors := w.authors.filterMap AuthorDraft.display?
    filters := filters }

def serviceSubclasses : List String := ["DOCKER_COMPOSE", "SWARM", "KUBERNETES", "HELM"]

def service (taken : List (Option String)) (s : ServiceDraft) : Except ManifestError Declaration := do
  checkName .service s.name taken
  let subclass := Text.uppercase (← required "service" "subclass" s.subclass)
  if !serviceSubclasses.contains subclass then throw (.unknownSubclass "service" subclass)
  let filters ← filter s.branches s.tags
  return {
    kind := .service
    name := s.name
    language := .service
    serviceSubclass := some subclass
    primaryDescriptorPath := path
    testParameterFiles := []
    files := s.files.map Path.normalize
    publish := s.publish
    authors := s.authors.filterMap AuthorDraft.display?
    filters := filters }

/-- The declarations of workflows, given the names before them. -/
def workflows (index : Nat) (taken : List (Option String)) :
    List WorkflowDraft → Except ManifestError (List Declaration)
  | [] => .ok []
  | w :: ws => do
    let d ← workflow index taken w
    return d :: (← workflows (index + 1) (taken ++ [w.name]) ws)

def ofDraft (version : String) (draft : Draft) : Except ManifestError Manifest := do
  if draft.workflows.isEmpty && draft.services.isEmpty then throw .nothingDeclared
  if 1 < draft.services.length then throw .severalServices
  let declared ← workflows 0 [] draft.workflows
  let services ← draft.services.mapM (service (draft.workflows.map WorkflowDraft.name))
  return ⟨version, declared ++ services⟩

/-- Reads and checks the text of a manifest. -/
def parse (content : String) : Except ManifestError Manifest :=
  match Yaml.Value.read? content with
  | none => .error .malformed
  | some document =>
    if document.mapping?.isNone then .error .notMapping
    else
      match (document.get? "version").bind versionText? with
      | none => .error .missingVersion
      | some version =>
        if version ≠ ManifestError.supportedVersion then .error (.unsupportedVersion version)
        else
          match Draft.ofValue? document with
          | none => .error .schema
          | some draft => ofDraft version draft

end Manifest

end WorkflowCatalog
