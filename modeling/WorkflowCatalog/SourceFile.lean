import WorkflowCatalog.Digest.Sha2
import WorkflowCatalog.Language
import WorkflowCatalog.Timestamp

/-!
# Source files and their checksums

A file of a version is known by its kind and absolute path. Each checksum says which digest it is; a file
without content has none.
-/
namespace WorkflowCatalog

inductive DigestAlgorithm | sha256 | sha512
deriving DecidableEq, Repr

namespace DigestAlgorithm

def name : DigestAlgorithm → String
  | sha256 => "sha256"
  | sha512 => "sha512"

def all : List DigestAlgorithm := [sha256, sha512]

def ofName? (s : String) : Option DigestAlgorithm := all.find? fun a => a.name == s

def rank : DigestAlgorithm → Nat
  | sha256 => 0
  | sha512 => 1

/-- The digest of a text in hexadecimal digits. -/
def digest (a : DigestAlgorithm) (text : String) : String :=
  match a with
  | sha256 => Digest.sha256 text.toUTF8.toList
  | sha512 => Digest.sha512 text.toUTF8.toList

end DigestAlgorithm

structure Checksum where
  algorithm : DigestAlgorithm
  digest : String
deriving DecidableEq, Repr

def Checksum.ofText (a : DigestAlgorithm) (text : String) : Checksum := ⟨a, a.digest text⟩

/-- What a file is known by within a version. -/
structure FileKey where
  type : FileType
  path : String
deriving DecidableEq, Repr

namespace FileKey

/-- Kinds come first, then paths. -/
instance : LT FileKey := ⟨fun a b => a.type.rank < b.type.rank ∨ (a.type = b.type ∧ a.path < b.path)⟩

theorem lt_iff {a b : FileKey} : a < b ↔ a.type.rank < b.type.rank ∨ (a.type = b.type ∧ a.path < b.path) := Iff.rfl

instance : DecidableLT FileKey := fun a b =>
  inferInstanceAs (Decidable (a.type.rank < b.type.rank ∨ (a.type = b.type ∧ a.path < b.path)))

instance : Std.Irrefl (α := FileKey) (· < ·) := ⟨fun a h => by
  rw [lt_iff] at h
  rcases h with h | ⟨-, h⟩
  · exact Nat.lt_irrefl _ h
  · exact String.lt_irrefl _ h⟩

instance : Trans (α := FileKey) (β := FileKey) (γ := FileKey) (· < ·) (· < ·) (· < ·) := ⟨fun {a b c} h k => by
  rw [lt_iff] at h k ⊢
  rcases h with h | ⟨h, hp⟩
  · rcases k with k | ⟨k, -⟩
    · exact .inl (Nat.lt_trans h k)
    · exact .inl (k ▸ h)
  · rcases k with k | ⟨k, kp⟩
    · exact .inl (h ▸ k)
    · exact .inr ⟨h.trans k, String.lt_trans hp kp⟩⟩

instance : Std.Trichotomous (α := FileKey) (· < ·) := ⟨fun a b h k => by
  rw [lt_iff, not_or] at h k
  have type : a.type = b.type := FileType.rank_inj.mp (by omega)
  have path : a.path = b.path :=
    Std.Trichotomous.trichotomous (r := (· < ·)) _ _ (fun l => h.2 ⟨type, l⟩) (fun l => k.2 ⟨type.symm, l⟩)
  cases a
  cases b
  simp_all⟩

def toText (k : FileKey) : String := k.type.label ++ ":" ++ k.path

/-- The identifier of the file with that key. -/
def fileId (k : FileKey) : String :=
  "sf:" ++ String.ofList ((DigestAlgorithm.sha256.digest (k.type.label ++ k.path)).toList.take 12)

end FileKey

structure SourceFile where
  id : String
  type : FileType
  path : String
  absolutePath : String
  content : Option String
  checksums : List Checksum
  createdAt : Timestamp
deriving DecidableEq, Repr

namespace SourceFile

def key (f : SourceFile) : FileKey := ⟨f.type, f.absolutePath⟩

/-- A file as it comes from a repository, without checksums. -/
def fetched (now : Timestamp) (type : FileType) (path absolutePath content : String) : SourceFile where
  id := FileKey.fileId ⟨type, absolutePath⟩
  type := type
  path := path
  absolutePath := absolutePath
  content := some content
  checksums := []
  createdAt := now

/-- The first checksum of that algorithm. -/
def checksum? (f : SourceFile) (a : DigestAlgorithm) : Option String :=
  (f.checksums.find? fun c => c.algorithm == a).map Checksum.digest

end SourceFile

namespace Checksum

/-- Replaces the first checksum of the same algorithm, or adds one. -/
def replace (fresh : Checksum) : List Checksum → List Checksum
  | [] => [fresh]
  | c :: cs => if c.algorithm = fresh.algorithm then fresh :: cs else c :: replace fresh cs

/-- In the order of algorithms; those of one algorithm stay as they are. -/
def sort (cs : List Checksum) : List Checksum :=
  DigestAlgorithm.all.flatMap fun a => cs.filter fun c => c.algorithm = a

end Checksum

namespace SourceFile

/-- Brings the checksum of one algorithm up to date. Others are kept only if the content did not change. -/
def refreshed (f : SourceFile) (a : DigestAlgorithm) (changed : Bool) : SourceFile :=
  match f.content with
  | none => { f with checksums := [] }
  | some text =>
    let fresh := Checksum.ofText a text
    if changed then { f with checksums := [fresh] }
    else { f with checksums := Checksum.sort (Checksum.replace fresh f.checksums) }

/-- Checksums are all that is brought up to date. -/
theorem refreshed_eq (f : SourceFile) (a : DigestAlgorithm) (changed : Bool) :
    ∃ checksums, f.refreshed a changed = { f with checksums := checksums } := by
  unfold refreshed
  split
  · exact ⟨_, rfl⟩
  · dsimp only
    split <;> exact ⟨_, rfl⟩

end SourceFile

namespace Checksum

theorem filter_sort (a : DigestAlgorithm) (cs : List Checksum) :
    (sort cs).filter (fun c => c.algorithm = a) = cs.filter fun c => c.algorithm = a := by
  have apart (b : DigestAlgorithm) : (cs.filter fun c => c.algorithm = b).filter (fun c => c.algorithm = a) =
      if b = a then cs.filter fun c => c.algorithm = a else [] := by
    rw [List.filter_filter]
    split
    · rename_i same
      subst same
      simp only [Bool.and_self]
    · rename_i other
      rw [List.filter_eq_nil_iff]
      intro c _ both
      simp only [Bool.and_eq_true, decide_eq_true_eq] at both
      exact other (both.2.symm.trans both.1)
  cases a <;> simp [sort, DigestAlgorithm.all, List.filter_append, apart]

/-- Of a list only the parts for each algorithm count. -/
theorem sort_congr {cs ds : List Checksum}
    (h : ∀ a, cs.filter (fun c => c.algorithm = a) = ds.filter fun c => c.algorithm = a) : sort cs = sort ds := by
  simp only [sort, h]

theorem filter_replace (fresh : Checksum) (a : DigestAlgorithm) (cs : List Checksum) :
    (replace fresh cs).filter (fun c => c.algorithm = a) =
      if fresh.algorithm = a then fresh :: (cs.filter fun c => c.algorithm = a).tail
      else cs.filter fun c => c.algorithm = a := by
  induction cs with
  | nil => by_cases same : fresh.algorithm = a <;> simp [replace, same]
  | cons c cs ih =>
    by_cases same : fresh.algorithm = a
    · subst same
      by_cases hc : c.algorithm = fresh.algorithm
      · simp [replace, hc]
      · simp [replace, hc, ih]
    · by_cases hc : c.algorithm = fresh.algorithm
      · simp [replace, hc, same]
      · rw [if_neg same] at ih ⊢
        rw [replace, if_neg hc, List.filter_cons, ih, List.filter_cons]

/-- A checksum that is there already changes nothing. -/
theorem sort_replace_sort_replace (fresh : Checksum) (cs : List Checksum) :
    sort (replace fresh (sort (replace fresh cs))) = sort (replace fresh cs) := by
  refine sort_congr fun a => ?_
  rw [filter_replace, filter_sort, filter_replace]
  split <;> rfl

end Checksum

/-- Checksums that are up to date stay as they are. -/
theorem SourceFile.refreshed_refreshed (f : SourceFile) (a : DigestAlgorithm) (changed : Bool) :
    (f.refreshed a changed).refreshed a false = f.refreshed a changed := by
  obtain ⟨id, type, path, absolutePath, content, checksums, createdAt⟩ := f
  cases content with
  | none => rfl
  | some text =>
    cases changed with
    | true =>
      have single : Checksum.replace (Checksum.ofText a text) [] = [Checksum.ofText a text] := rfl
      have settled := Checksum.sort_replace_sort_replace (Checksum.ofText a text) []
      rw [single] at settled
      have sorted : Checksum.sort [Checksum.ofText a text] = [Checksum.ofText a text] := by cases a <;> rfl
      rw [sorted] at settled
      simp only [refreshed, if_true, Bool.false_eq_true, if_false, settled]
    | false => simp only [refreshed, Bool.false_eq_true, if_false, Checksum.sort_replace_sort_replace]

end WorkflowCatalog
