import WorkflowCatalog.SourceFile

/-!
# Options of reconciliation
-/
namespace WorkflowCatalog

/-- Whether a version that cannot be built stops the whole call. -/
inductive Isolation | perVersion | failFast
deriving DecidableEq, Repr

namespace Isolation

def name : Isolation → String
  | perVersion => "per_version"
  | failFast => "fail_fast"

def all : List Isolation := [perVersion, failFast]

end Isolation

structure Options where
  algorithm : DigestAlgorithm
  isolation : Isolation
  maxImportDepth : Nat
deriving DecidableEq, Repr

def Options.initial : Options := ⟨.sha256, .perVersion, 10⟩

end WorkflowCatalog
