import WorkflowCatalog.Text.Split

/-!
# Descriptor languages and kinds of files

Each language says what kind of file its primary descriptor, the files that imports, and its test
parameters are. Kinds of files are ordered as they are listed.
-/
namespace WorkflowCatalog

inductive EntryKind | workflow | service
deriving DecidableEq, Repr

inductive Language | cwl | wdl | nextflow | service
deriving DecidableEq, Repr

inductive FileType
  | cwl | wdl | nextflowConfig | nextflow | cwlTest | wdlTest | nextflowTest
  | containerBuild | manifest | serviceManifest | serviceFile
deriving DecidableEq, Repr

namespace FileType

def all : List FileType :=
  [cwl, wdl, nextflowConfig, nextflow, cwlTest, wdlTest, nextflowTest, containerBuild, manifest,
    serviceManifest, serviceFile]

/-- The place in the order of kinds. -/
def rank : FileType → Nat
  | cwl => 0
  | wdl => 1
  | nextflowConfig => 2
  | nextflow => 3
  | cwlTest => 4
  | wdlTest => 5
  | nextflowTest => 6
  | containerBuild => 7
  | manifest => 8
  | serviceManifest => 9
  | serviceFile => 10

theorem rank_inj {s t : FileType} : s.rank = t.rank ↔ s = t := by
  cases s <;> cases t <;> decide

/-- The label in keys and identifiers of files. -/
def label : FileType → String
  | cwl => "DockstoreCwl"
  | wdl => "DockstoreWdl"
  | nextflowConfig => "NextflowConfig"
  | nextflow => "Nextflow"
  | cwlTest => "CwlTestJson"
  | wdlTest => "WdlTestJson"
  | nextflowTest => "NextflowTestParams"
  | containerBuild => "Dockerfile"
  | manifest => "DockstoreYml"
  | serviceManifest => "DockstoreServiceYml"
  | serviceFile => "DockstoreServiceOther"

/-- The name in stored documents. -/
def name : FileType → String
  | cwl => "DOCKSTORE_CWL"
  | wdl => "DOCKSTORE_WDL"
  | nextflowConfig => "NEXTFLOW_CONFIG"
  | nextflow => "NEXTFLOW"
  | cwlTest => "CWL_TEST_JSON"
  | wdlTest => "WDL_TEST_JSON"
  | nextflowTest => "NEXTFLOW_TEST_PARAMS"
  | containerBuild => "DOCKERFILE"
  | manifest => "DOCKSTORE_YML"
  | serviceManifest => "DOCKSTORE_SERVICE_YML"
  | serviceFile => "DOCKSTORE_SERVICE_OTHER"

def ofName? (s : String) : Option FileType := all.find? fun t => t.name == s

def isTestParameter : FileType → Bool
  | cwlTest | wdlTest | nextflowTest => true
  | _ => false

end FileType

namespace EntryKind

def name : EntryKind → String
  | workflow => "workflow"
  | service => "service"

def ofName? (s : String) : Option EntryKind := [workflow, service].find? fun k => k.name == s

end EntryKind

namespace Language

def all : List Language := [cwl, wdl, nextflow, service]

def rank : Language → Nat
  | cwl => 0
  | wdl => 1
  | nextflow => 2
  | service => 3

theorem rank_inj {s t : Language} : s.rank = t.rank ↔ s = t := by
  cases s <;> cases t <;> decide

/-- The name that readers are shown. -/
def label : Language → String
  | cwl => "CWL"
  | wdl => "WDL"
  | nextflow => "Nextflow"
  | service => "Service"

/-- The name in stored documents. -/
def name : Language → String
  | cwl => "cwl"
  | wdl => "wdl"
  | nextflow => "nextflow"
  | service => "service"

def ofName? (s : String) : Option Language := all.find? fun l => l.name == s

/-- The language that a workflow declares, however its letters are cased. -/
def ofSubclass? (s : String) : Option Language :=
  match Text.uppercase s with
  | "CWL" => some cwl
  | "WDL" => some wdl
  | "NFL" => some nextflow
  | "NEXTFLOW" => some nextflow
  | _ => none

def primaryType : Language → FileType
  | cwl => .cwl
  | wdl => .wdl
  | nextflow => .nextflowConfig
  | service => .serviceManifest

def secondaryType : Language → FileType
  | cwl => .cwl
  | wdl => .wdl
  | nextflow => .nextflow
  | service => .serviceFile

def testType? : Language → Option FileType
  | cwl => some .cwlTest
  | wdl => some .wdlTest
  | nextflow => some .nextflowTest
  | service => none

end Language

end WorkflowCatalog
