import WorkflowCatalog.Descriptor.Imports
import WorkflowCatalog.Descriptor.Resolver
import WorkflowCatalog.Merge
import WorkflowCatalog.Reconcile.Context

/-!
# Building a version

All files of a version are fetched and judged, and merged with those on record. Nothing is saved here, so a
version that cannot be built leaves no trace.
-/
namespace WorkflowCatalog

/-- A listed version together with what its manifest declares for the entry. -/
structure VersionSource where
  remote : RemoteVersion
  declaration : Declaration
  manifestText : String
deriving DecidableEq, Repr

namespace Build

/-- The manifest as a file of its own; for a service it is the primary file instead. -/
def manifestFile (c : Context) (l : Language) (text : String) : List SourceFile :=
  if l = .service then [] else [.fetched c.now .manifest Manifest.path Manifest.path text]

/-- The judgment on a primary descriptor. -/
def judge (l : Language) (path text : String) (checks : List Validation) : List Validation :=
  match l.check text with
  | .ok () => Validation.pass checks (.descriptor l)
  | .error e => Validation.fail checks (.descriptor l) (SyncError.descriptorSyntax path e.message).message

def judgeImports (missing : List String) (checks : List Validation) : List Validation :=
  if missing.isEmpty then Validation.pass checks .imports
  else Validation.fail checks .imports ("missing imports: " ++ ", ".intercalate missing)

/-- The text of the primary descriptor, if it is there; that of a service is the manifest. -/
def primaryText (c : Context) (repository reference path : String) (l : Language) (manifestText : String) :
    Fetch (Option String) :=
  if l = .service then pure (some manifestText) else Fetch.text c repository reference path

/-- The primary descriptor and the files that it leads to. -/
def descriptorFiles (c : Context) (repository reference path : String) (l : Language) (manifestText : String)
    (checks : List Validation) : Fetch (List SourceFile × List Validation) := do
  match ← primaryText c repository reference path l manifestText with
  | none => return ([], Validation.pass (Validation.fail checks (.descriptor l) (path ++ " not found")) .imports)
  | some text =>
    let resolved ← resolveImports (l.importsFrom path) (Fetch.text c repository reference) c.now
      c.options.maxImportDepth path text
    return (.fetched c.now l.primaryType path path text :: resolved.files.map Prod.snd,
      judgeImports resolved.missing (judge l path text checks))

/-- The test parameter files that are there; each one that is not is a failure. -/
def testFiles (c : Context) (repository reference : String) (type : FileType) :
    List String → List Validation → Fetch (List SourceFile × List Validation)
  | [], checks => return ([], checks)
  | path :: paths, checks => do
    let absolute := Path.normalize path
    match ← Fetch.text c repository reference absolute with
    | some text =>
      let (files, checks) ← testFiles c repository reference type paths checks
      return (.fetched c.now type path absolute text :: files, checks)
    | none =>
      testFiles c repository reference type paths (Validation.fail checks .testParameters (path ++ " not found"))

/-- The test parameter files of a version, for languages that have such files. -/
def parameterFiles (c : Context) (repository reference : String) (l : Language) (paths : List String)
    (checks : List Validation) : Fetch (List SourceFile × List Validation) :=
  match l.testType? with
  | none => return ([], checks)
  | some type => do
    let (files, checks) ← testFiles c repository reference type paths checks
    return (files, Validation.pass checks .testParameters)

/-- All files of a version, and the judgments on them. -/
def gather (c : Context) (e : Entry) (v : Version) (s : VersionSource) :
    Fetch (List SourceFile × List Validation) := do
  let repository := e.path.repositoryPath
  let path := Path.normalize (v.effectivePath e.defaultDescriptorPath)
  let (files, checks) ← descriptorFiles c repository s.remote.name path e.language s.manifestText
    (Validation.pass [] .manifest)
  let (tests, checks) ← parameterFiles c repository s.remote.name e.language v.testParameterPaths checks
  return (manifestFile c e.language s.manifestText ++ files ++ tests, checks)

/-- Fetches every file of a version and judges it, if its language is supported. -/
def collect (c : Context) (e : Entry) (v : Version) (s : VersionSource) :
    Fetch (List SourceFile × List Validation) :=
  if c.languages.contains e.language then gather c e v s
  else throw (.invalidManifest ("no resolver registered for " ++ e.language.label))

/-- The version on record, or a new one, as the listing and the declaration have it now. -/
def outline (e : Entry) (s : VersionSource) : Version :=
  let v := (e.version? s.remote.name).getD (.ofRemote s.remote e.language)
  let path := s.declaration.primaryDescriptorPath
  { v with
    referenceType := s.remote.referenceType
    commitId := some s.remote.commitId
    lastModified := s.remote.lastModified
    legacy := false
    descriptorPath := if path = e.defaultDescriptorPath then none else some path
    testParameterPaths := s.declaration.testParameterFiles }

/-- The outline of a version with its files and judgments brought up to date, unless it is frozen. -/
def revise (c : Context) (e : Entry) (s : VersionSource) : Fetch Version := do
  let v := outline e s
  Fetch.ofExcept (v.ensureMutable e.path)
  let (files, checks) ← collect c e v s
  return { v with
    sourceFiles := (merge v.sourceFiles files c.options.algorithm).files
    validations := Validation.aggregate v.validations checks }

/-- The next state of one version; its declaration must agree with the language of the entry. -/
def version (c : Context) (e : Entry) (s : VersionSource) : Fetch Version :=
  let l := s.declaration.language
  if l = e.language then revise c e s
  else throw (.invalidManifest (s.remote.name ++ " declares " ++ l.label ++ " but " ++ e.path.toText ++ " is a "
    ++ e.language.label ++ " entry"))

end Build

end WorkflowCatalog
