import WorkflowCatalog.Glob
import WorkflowCatalog.Regex.Pattern
import WorkflowCatalog.Version

/-!
# Filters of branches and tags

A manifest may list patterns of the branches and tags that an entry accepts. A pattern between slashes is
a regular expression for the whole name, and any other pattern is a glob.
-/
namespace WorkflowCatalog

inductive NamePattern
  | glob (g : Glob)
  | regex (r : Regex)
deriving DecidableEq, Repr

/-- Why a pattern could not be read. -/
inductive PatternError
  | regex (pattern : String)
  | glob (pattern : String)
deriving DecidableEq, Repr

namespace NamePattern

/-- The text between the slashes of a regular expression, if there is any. -/
def inner? (pattern : List Char) : Option (List Char) :=
  match pattern with
  | '/' :: rest =>
    match rest.reverse with
    | '/' :: c :: before => some (c :: before).reverse
    | _ => none
  | _ => none

/-- The pattern that holds only for whole names. -/
def anchored (inner : List Char) : List Char := "^(?:".toList ++ inner ++ ")$".toList

def ofText (pattern : String) : Except PatternError NamePattern :=
  match inner? pattern.toList with
  | some inner =>
    match Regex.ofPattern? (anchored inner) with
    | some r => .ok (.regex r)
    | none => .error (.regex pattern)
  | none =>
    match Glob.ofPattern? pattern.toList with
    | some g => .ok (.glob g)
    | none => .error (.glob pattern)

def accepts (p : NamePattern) (name : String) : Bool :=
  match p with
  | glob g => g.accepts name
  | regex r => r.search (name.toList.map Char.toNat)

/-- The patterns of a list; nothing if the list is empty. -/
def ofTexts (patterns : List String) : Except PatternError (Option (List NamePattern)) :=
  if patterns.isEmpty then .ok none else (patterns.mapM ofText).map some

end NamePattern

/-- The branches and tags that an entry accepts. -/
structure RefFilter where
  branches : Option (List NamePattern)
  tags : Option (List NamePattern)
deriving DecidableEq, Repr

namespace RefFilter

def ofTexts (branches tags : List String) : Except PatternError RefFilter := do
  return ⟨← NamePattern.ofTexts branches, ← NamePattern.ofTexts tags⟩

def isEmpty (f : RefFilter) : Bool := f.branches.isNone && f.tags.isNone

/-- Without filters everything passes; with any, a name must match a pattern for its own kind. -/
def accepts (f : RefFilter) (type : ReferenceType) (name : String) : Bool :=
  if f.isEmpty then true
  else
    let patterns := match type with
      | .branch => f.branches
      | .tag => f.tags
      | .notApplicable => none
    match patterns with
    | some ps => ps.any (·.accepts name)
    | none => false

end RefFilter

end WorkflowCatalog
