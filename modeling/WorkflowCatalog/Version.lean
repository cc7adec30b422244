import WorkflowCatalog.SourceFile
import WorkflowCatalog.Validation

/-!
# Versions

A version of an entry follows one branch or tag. A frozen version is locked against every change that
reconciliation could make.
-/
namespace WorkflowCatalog

inductive ReferenceType | branch | tag | notApplicable
deriving DecidableEq, Repr

namespace ReferenceType

def name : ReferenceType → String
  | branch => "branch"
  | tag => "tag"
  | notApplicable => "not_applicable"

def all : List ReferenceType := [branch, tag, notApplicable]

def ofName? (s : String) : Option ReferenceType := all.find? fun t => t.name == s

end ReferenceType

/-- A version as the repository shows it. -/
structure RemoteVersion where
  name : String
  referenceType : ReferenceType
  commitId : String
  lastModified : Option Timestamp
deriving DecidableEq, Repr

structure Version where
  name : String
  referenceType : ReferenceType
  commitId : Option String
  frozen : Bool
  legacy : Bool
  language : Language
  descriptorPath : Option String
  testParameterPaths : List String
  sourceFiles : List SourceFile
  validations : List Validation
  lastModified : Option Timestamp
deriving DecidableEq, Repr

namespace Version

/-- A version that nothing has been fetched for yet. -/
def ofRemote (r : RemoteVersion) (l : Language) : Version where
  name := r.name
  referenceType := r.referenceType
  commitId := none
  frozen := false
  legacy := false
  language := l
  descriptorPath := none
  testParameterPaths := []
  sourceFiles := []
  validations := []
  lastModified := none

/-- The path of the primary descriptor: the version's own, or else the entry's. -/
def effectivePath (v : Version) (entryPath : String) : String := v.descriptorPath.getD entryPath

def isValid (v : Version) : Bool := v.validations.all (·.isValid)

def file? (v : Version) (k : FileKey) : Option SourceFile := v.sourceFiles.find? fun f => f.key == k

end Version

end WorkflowCatalog
