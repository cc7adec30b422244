import WorkflowCatalog.Text.Split

/-!
# Addresses of entries

An entry is addressed by the host of its repository, the organization and name of the repository, and a
name of its own where the repository declares several entries.
-/
namespace WorkflowCatalog

inductive Host | github | gitlab | bitbucket
deriving DecidableEq, Repr

namespace Host

def name : Host → String
  | github => "github.com"
  | gitlab => "gitlab.com"
  | bitbucket => "bitbucket.org"

def all : List Host := [github, gitlab, bitbucket]

/-- The host of that exact name. -/
def ofName? (s : String) : Option Host := all.find? fun h => h.name == s

/-- The host of that name, however its letters are cased. -/
def ofText? (s : String) : Option Host := ofName? (Text.lowercase s)

end Host

structure EntryPath where
  host : Host
  organization : String
  repository : String
  name : Option String
deriving DecidableEq, Repr

namespace EntryPath

def nonempty? (s : List Char) : Option String := if s.isEmpty then none else some (String.ofList s)

/-- The address of an entry of a repository given as `organization/repository`. -/
def ofRepository? (repository : String) (name : Option String) : Option EntryPath :=
  match Text.splitOn '/' repository.toList with
  | [organization, repository] => do
    return ⟨.github, ← nonempty? organization, ← nonempty? repository, name⟩
  | _ => none

/-- The repository of the entry, as `organization/repository`. -/
def repositoryPath (p : EntryPath) : String := p.organization ++ "/" ++ p.repository

/-- Reads `host/organization/repository`, with a slash and a name after it or not. -/
def ofText? (s : String) : Option EntryPath :=
  match Text.splitOn '/' s.toList with
  | host :: organization :: repository :: rest => do
    let host ← Host.ofText? (String.ofList host)
    let organization ← nonempty? organization
    let repository ← nonempty? repository
    match rest with
    | [] => return ⟨host, organization, repository, none⟩
    | [name] => return ⟨host, organization, repository, nonempty? name⟩
    | _ => none
  | _ => none

def toText (p : EntryPath) : String :=
  let base := p.host.name ++ "/" ++ p.organization ++ "/" ++ p.repository
  match p.name with
  | none => base
  | some name => base ++ "/" ++ name

/-- The identifier of the entry at that address. -/
def entryId (p : EntryPath) : String := "entry:" ++ p.toText

/-- Whether both entries belong to one repository. -/
def sameRepository (p q : EntryPath) : Bool :=
  p.host = q.host && p.organization = q.organization && p.repository = q.repository

theorem sameRepository_iff {p q : EntryPath} : p.sameRepository q = true ↔ ∃ name, p = { q with name := name } := by
  cases p
  cases q
  simp [sameRepository, and_assoc]

end EntryPath

end WorkflowCatalog
