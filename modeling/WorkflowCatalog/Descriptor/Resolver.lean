import WorkflowCatalog.Descriptor.Cwl
import WorkflowCatalog.Descriptor.Nextflow
import WorkflowCatalog.Descriptor.Service
import WorkflowCatalog.Descriptor.Wdl

/-!
# Descriptors by language

How each language judges a primary descriptor, finds imports, and tells which stored file is the primary
one.
-/
namespace WorkflowCatalog

namespace Language

/-- Whether the text is a valid primary descriptor. -/
def check (l : Language) (content : String) : Except DescriptorError Unit :=
  match l with
  | cwl => Cwl.check content
  | wdl => Wdl.check content
  | nextflow => Nextflow.check content
  | service => Service.check content

/-- The imports of one file. -/
def imports (l : Language) (path content : String) : List ImportRef :=
  match l with
  | cwl => Cwl.imports content
  | wdl => Wdl.imports content
  | nextflow => Nextflow.imports path content
  | service => Service.imports path content

/-- The imports of one file, where those of the primary file may say more than those of others. -/
def importsFrom (l : Language) (primary path content : String) : List ImportRef :=
  match l with
  | nextflow => Nextflow.allImports primary path content
  | l => l.imports path content

/-- What a file of a language imports is of the kinds that its descriptors are of. -/
theorem type_of_mem_importsFrom {l : Language} {primary path content : String} {i : ImportRef}
    (h : i ∈ l.importsFrom primary path content) : i.type = l.primaryType ∨ i.type = l.secondaryType := by
  cases l with
  | cwl =>
    simp only [importsFrom, imports, Cwl.imports] at h
    split at h
    · obtain ⟨_, -, rfl⟩ := List.mem_map.mp h
      exact .inl rfl
    · exact absurd h List.not_mem_nil
  | wdl =>
    obtain ⟨_, -, rfl⟩ := List.mem_map.mp h
    exact .inl rfl
  | nextflow =>
    rcases List.mem_append.mp h with h | h
    · simp only [Nextflow.imports] at h
      split at h
      · obtain ⟨_, -, rfl⟩ := List.mem_map.mp h
        exact .inl rfl
      · obtain ⟨_, -, rfl⟩ := List.mem_map.mp h
        exact .inr rfl
    · split at h
      · exact List.mem_singleton.mp h ▸ .inr rfl
      · exact absurd h List.not_mem_nil
  | service =>
    simp only [importsFrom, imports, Service.imports] at h
    split at h
    · exact absurd h List.not_mem_nil
    · split at h
      · obtain ⟨_, -, rfl⟩ := List.mem_map.mp h
        exact .inr rfl
      · exact absurd h List.not_mem_nil

end Language

namespace SourceFile

/-- The first of the files whose absolute path is the lowest. -/
def lowest? : List SourceFile → Option SourceFile
  | [] => none
  | f :: fs =>
    match lowest? fs with
    | some g => if g.absolutePath < f.absolutePath then some g else some f
    | none => some f

def ofType (type : FileType) (files : List SourceFile) : List SourceFile := files.filter fun f => f.type == type

/-- Whether the file is at the path, or is referred to by it, ignoring case. -/
def answersTo (path : String) (f : SourceFile) : Bool :=
  Text.equalsIgnoringCase f.absolutePath path || Text.equalsIgnoringCase (Path.normalize f.path) path

/-- The primary descriptor: at the declared path exactly, or else the lowest that the path could mean. -/
def primary? (type : FileType) (declared : String) (files : List SourceFile) : Option SourceFile :=
  let path := Path.normalize declared
  let candidates := (ofType type files).filter (answersTo path)
  (candidates.find? fun f => f.absolutePath == path).orElse fun _ => lowest? candidates

/-- The test parameters that stand for all files of their type. -/
def testParameters? (type : FileType) (files : List SourceFile) : Option SourceFile := lowest? (ofType type files)

end SourceFile

end WorkflowCatalog
