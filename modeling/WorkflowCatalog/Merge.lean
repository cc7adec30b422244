import WorkflowCatalog.Ascending
import WorkflowCatalog.Keyed
import WorkflowCatalog.SourceFile

/-!
# Merging the files of a version

The files fetched from a repository replace those on record. A file that is known by its key keeps its
identity: its identifier, when it was created, and checksums that are still right.
-/
namespace WorkflowCatalog

structure MergeOutcome where
  files : List SourceFile
  created : List FileKey
  updated : List FileKey
  unchanged : List FileKey
  removed : List FileKey
deriving DecidableEq, Repr

namespace Merge

/-- The file of that key. -/
def find? (k : FileKey) (files : List SourceFile) : Option SourceFile := files.find? fun f => f.key == k

/-- A file on record with the path and content that were fetched. -/
def kept (a : DigestAlgorithm) (old fetched : SourceFile) : SourceFile :=
  SourceFile.refreshed { old with content := fetched.content, path := fetched.path } a
    (decide (old.content ≠ fetched.content))

/-- A file that was not on record. -/
def created (a : DigestAlgorithm) (fetched : SourceFile) : SourceFile :=
  SourceFile.refreshed { fetched with id := fetched.key.fileId } a true

def joined (a : DigestAlgorithm) (existing : List SourceFile) (fetched : SourceFile) : SourceFile :=
  match find? fetched.key existing with
  | some old => kept a old fetched
  | none => created a fetched

/-- Whether the record holds other content for the key of a fetched file. -/
def isUpdate (existing : List SourceFile) (fetched : SourceFile) : Bool :=
  match find? fetched.key existing with
  | some old => decide (old.content ≠ fetched.content)
  | none => false

def isUnchanged (existing : List SourceFile) (fetched : SourceFile) : Bool :=
  match find? fetched.key existing with
  | some old => decide (old.content = fetched.content)
  | none => false

end Merge

/-- Joins the lists by key. Of files with one key the last on record and the first fetched count. -/
def merge (existing fetched : List SourceFile) (a : DigestAlgorithm) : MergeOutcome :=
  let current := Ascending.lastOf SourceFile.key existing
  let incoming := Ascending.firstOf SourceFile.key fetched
  { files := incoming.map (Merge.joined a current)
    created := (incoming.filter fun f => (Merge.find? f.key current).isNone).map SourceFile.key
    updated := (incoming.filter (Merge.isUpdate current)).map SourceFile.key
    unchanged := (incoming.filter (Merge.isUnchanged current)).map SourceFile.key
    removed := (current.filter fun f => (Merge.find? f.key incoming).isNone).map SourceFile.key }

namespace Merge

theorem find?_eq_some {k : FileKey} {files : List SourceFile} {f : SourceFile} (h : find? k files = some f) :
    f ∈ files ∧ f.key = k :=
  ⟨List.mem_of_find?_eq_some h, by simpa using List.find?_some h⟩

section Joined

variable (a : DigestAlgorithm) (existing : List SourceFile) (fetched : SourceFile)

@[simp] theorem key_joined : (joined a existing fetched).key = fetched.key := by
  unfold joined
  split
  · rename_i old h
    obtain ⟨checksums, e⟩ := SourceFile.refreshed_eq { old with content := fetched.content, path := fetched.path } a
      (decide (old.content ≠ fetched.content))
    rw [kept, e]
    exact (find?_eq_some h).2
  · obtain ⟨checksums, e⟩ := SourceFile.refreshed_eq { fetched with id := fetched.key.fileId } a true
    rw [created, e]
    rfl

@[simp] theorem content_joined : (joined a existing fetched).content = fetched.content := by
  unfold joined
  split
  · rename_i old h
    obtain ⟨checksums, e⟩ := SourceFile.refreshed_eq { old with content := fetched.content, path := fetched.path } a
      (decide (old.content ≠ fetched.content))
    rw [kept, e]
  · obtain ⟨checksums, e⟩ := SourceFile.refreshed_eq { fetched with id := fetched.key.fileId } a true
    rw [created, e]

@[simp] theorem path_joined : (joined a existing fetched).path = fetched.path := by
  unfold joined
  split
  · rename_i old h
    obtain ⟨checksums, e⟩ := SourceFile.refreshed_eq { old with content := fetched.content, path := fetched.path } a
      (decide (old.content ≠ fetched.content))
    rw [kept, e]
  · obtain ⟨checksums, e⟩ := SourceFile.refreshed_eq { fetched with id := fetched.key.fileId } a true
    rw [created, e]

theorem refreshed_joined : (joined a existing fetched).refreshed a false = joined a existing fetched := by
  unfold joined
  split
  · exact SourceFile.refreshed_refreshed _ _ _
  · exact SourceFile.refreshed_refreshed _ _ _

variable {a existing fetched}

/-- A file that was joined stays as it is when the same is fetched again. -/
theorem joined_again {files : List SourceFile} {again : SourceFile} (key : again.key = fetched.key)
    (content : again.content = fetched.content) (path : again.path = fetched.path)
    (onRecord : find? fetched.key files = some (joined a existing fetched)) :
    joined a files again = joined a existing fetched := by
  have same : ({ joined a existing fetched with content := again.content, path := again.path } : SourceFile) =
      joined a existing fetched := by
    rw [content, path]
    calc ({ joined a existing fetched with content := fetched.content, path := fetched.path } : SourceFile)
        = { joined a existing fetched with
            content := (joined a existing fetched).content, path := (joined a existing fetched).path } := by
          rw [content_joined, path_joined]
      _ = joined a existing fetched := rfl
  have still : decide ((joined a existing fetched).content ≠ again.content) = false := by
    rw [content_joined, content]
    simp
  rw [joined, key, onRecord]
  simp only [kept, same, still]
  exact refreshed_joined a existing fetched

/-- A file on record keeps its identity. -/
theorem identity_joined {old : SourceFile} (h : find? fetched.key existing = some old) :
    (joined a existing fetched).id = old.id ∧ (joined a existing fetched).createdAt = old.createdAt := by
  obtain ⟨checksums, e⟩ := SourceFile.refreshed_eq { old with content := fetched.content, path := fetched.path } a
    (decide (old.content ≠ fetched.content))
  simp only [joined, h, kept, e, and_self]

/-- A file that was not on record has the identifier of its key. -/
theorem id_joined (h : find? fetched.key existing = none) : (joined a existing fetched).id = fetched.key.fileId := by
  obtain ⟨checksums, e⟩ := SourceFile.refreshed_eq { fetched with id := fetched.key.fileId } a true
  simp only [joined, h, created, e]

end Joined

theorem keys_files (existing fetched : List SourceFile) (a : DigestAlgorithm) :
    (merge existing fetched a).files.map SourceFile.key =
      (Ascending.firstOf SourceFile.key fetched).map SourceFile.key := by
  simp [merge, Function.comp_def]

theorem isAscending_files (existing fetched : List SourceFile) (a : DigestAlgorithm) :
    Ascending.IsAscending SourceFile.key (merge existing fetched a).files := by
  have h := Ascending.isAscending_firstOf SourceFile.key fetched
  rw [Ascending.IsAscending, ← List.pairwise_map] at h ⊢
  rwa [keys_files]

/-- The files are there for the keys that were fetched. -/
theorem mem_keys_files {existing fetched : List SourceFile} {a : DigestAlgorithm} {k : FileKey} :
    k ∈ (merge existing fetched a).files.map SourceFile.key ↔ k ∈ fetched.map SourceFile.key := by
  rw [keys_files, Ascending.mem_keys_firstOf]

/-- What is there for a key is joined of the first file that was fetched with it. -/
theorem find?_files (existing fetched : List SourceFile) (a : DigestAlgorithm) (k : FileKey) :
    find? k (merge existing fetched a).files =
      (find? k fetched).map (joined a (Ascending.lastOf SourceFile.key existing)) := by
  have keys : (fun f : SourceFile => f.key == k) ∘ joined a (Ascending.lastOf SourceFile.key existing) =
      fun f => f.key == k := funext fun f => by rw [Function.comp_apply, key_joined]
  rw [find?, merge, List.find?_map, keys, Ascending.find?_firstOf, find?]

/-- A file comes of the first that was fetched with its key. -/
theorem mem_files {existing fetched : List SourceFile} {a : DigestAlgorithm} {f : SourceFile}
    (h : f ∈ (merge existing fetched a).files) :
    ∃ g, find? f.key fetched = some g ∧ f = joined a (Ascending.lastOf SourceFile.key existing) g := by
  have found : find? f.key (merge existing fetched a).files = some f :=
    (Keyed.find?_eq_some_iff (isAscending_files existing fetched a).nodup_keys).mpr ⟨h, rfl⟩
  rw [find?_files, Option.map_eq_some_iff] at found
  obtain ⟨g, hg, e⟩ := found
  exact ⟨g, hg, e.symm⟩

end Merge

def MergeOutcome.isNoop (o : MergeOutcome) : Bool := o.created.isEmpty && o.updated.isEmpty && o.removed.isEmpty

end WorkflowCatalog
