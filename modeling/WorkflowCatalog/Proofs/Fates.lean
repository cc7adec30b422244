import Mathlib.Logic.Basic
import WorkflowCatalog.Merge

/-!
# What becomes of each key

Where what is on record gives way to what was found, each key of either side has one fate: it is added, updated, left
unchanged or removed. For the files of a version the last one on record with a key and the first one that was fetched
with it decide, and `merge` tells the fate of each key once.
-/
namespace WorkflowCatalog

inductive Fate | added | updated | unchanged | removed
deriving DecidableEq, Repr

namespace Fate

def all : List Fate := [added, updated, unchanged, removed]

/-- The list of each fate has the keys of that fate, each once. -/
structure Sorts {κ : Type} (fate? : κ → Option Fate) (lists : Fate → List κ) : Prop where
  nodup : ∀ x, (lists x).Nodup
  mem_iff : ∀ x k, k ∈ lists x ↔ fate? k = some x

section Sorts

variable {κ : Type} {fate? : κ → Option Fate} {lists : Fate → List κ} (h : Sorts fate? lists)
include h

/-- No key is in two of the lists, since it has one fate at most. -/
theorem Sorts.nodup_together : (all.flatMap lists).Nodup := by
  rw [List.Nodup, List.pairwise_flatMap]
  constructor
  · intro x _
    exact h.nodup x
  · have distinct : all.Nodup := by decide
    apply distinct.imp
    intro x y other k hx l hl e
    rw [h.mem_iff] at hx hl
    rw [← e, hx, Option.some.injEq] at hl
    exact other hl

theorem Sorts.mem_together {k : κ} : k ∈ all.flatMap lists ↔ (fate? k).isSome = true := by
  rw [List.mem_flatMap, Option.isSome_iff_exists]
  constructor
  · rintro ⟨x, -, hk⟩
    exact ⟨x, (h.mem_iff x k).mp hk⟩
  · rintro ⟨x, hk⟩
    exact ⟨x, by cases x <;> decide, (h.mem_iff x k).mpr hk⟩

/-- A fate that no key has leaves its list empty. -/
theorem Sorts.eq_nil {x : Fate} (never : ∀ k, fate? k ≠ some x) : lists x = [] := by
  rw [List.eq_nil_iff_forall_not_mem]
  intro k hk
  exact never k ((h.mem_iff x k).mp hk)

end Sorts

end Fate

/-! ## Files that are merged -/

def MergeOutcome.keys (o : MergeOutcome) : Fate → List FileKey
  | .added => o.created
  | .updated => o.updated
  | .unchanged => o.unchanged
  | .removed => o.removed

namespace Merge

/-- The last file of that key. -/
def last? (k : FileKey) (files : List SourceFile) : Option SourceFile := find? k files.reverse

/-- What becomes of a key: the last file on record with it and the first that was fetched with it count. -/
def fate? (existing fetched : List SourceFile) (k : FileKey) : Option Fate :=
  match last? k existing, find? k fetched with
  | none, none => none
  | none, some _ => some .added
  | some _, none => some .removed
  | some old, some new => if old.content = new.content then some .unchanged else some .updated

/-- The files on record and those that were fetched, joined by key. -/
structure IsJoin (existing fetched : List SourceFile) (o : MergeOutcome) : Prop where
  ascending : Ascending.IsAscending SourceFile.key o.files
  keys : ∀ k, k ∈ o.files.map SourceFile.key ↔ k ∈ fetched.map SourceFile.key
  contents : ∀ f ∈ o.files, ∃ new, find? f.key fetched = some new ∧ f.path = new.path ∧ f.content = new.content
  kept : ∀ f ∈ o.files, ∀ old, last? f.key existing = some old → f.id = old.id ∧ f.createdAt = old.createdAt
  named : ∀ f ∈ o.files, f.key ∉ existing.map SourceFile.key → f.id = f.key.fileId
  ordered : ∀ x, (o.keys x).Pairwise (· < ·)
  fates : ∀ x k, k ∈ o.keys x ↔ fate? existing fetched k = some x
  once : (Fate.all.flatMap o.keys).Nodup
  together : ∀ k, k ∈ Fate.all.flatMap o.keys ↔ k ∈ existing.map SourceFile.key ∨ k ∈ fetched.map SourceFile.key

variable {existing fetched : List SourceFile} {a : DigestAlgorithm} {k : FileKey}

theorem find?_current : find? k (Ascending.lastOf SourceFile.key existing) = last? k existing :=
  Ascending.find?_lastOf SourceFile.key existing k

theorem find?_incoming : find? k (Ascending.firstOf SourceFile.key fetched) = find? k fetched :=
  Ascending.find?_firstOf SourceFile.key fetched k

theorem isSome_find? {files : List SourceFile} : (find? k files).isSome = true ↔ k ∈ files.map SourceFile.key :=
  Ascending.mem_keys_iff.symm

theorem isSome_last? : (last? k existing).isSome = true ↔ k ∈ existing.map SourceFile.key := by
  rw [last?, isSome_find?, List.map_reverse, List.mem_reverse]

theorem isSome_fate? :
    (fate? existing fetched k).isSome = true ↔ k ∈ existing.map SourceFile.key ∨ k ∈ fetched.map SourceFile.key := by
  rw [← isSome_last?, ← isSome_find?, fate?]
  cases last? k existing <;> cases find? k fetched <;> simp [apply_ite Option.isSome]

/-- Of files in the order of their keys, those that pass a test are told in that order. -/
theorem ascending_filter {files : List SourceFile} (h : Ascending.IsAscending SourceFile.key files)
    (p : SourceFile → Bool) : ((files.filter p).map SourceFile.key).Pairwise (· < ·) := by
  rw [List.pairwise_map]
  exact h.sublist List.filter_sublist

theorem ordered_keys (x : Fate) : ((merge existing fetched a).keys x).Pairwise (· < ·) := by
  have incoming := Ascending.isAscending_firstOf SourceFile.key fetched
  cases x with
  | added => exact ascending_filter incoming _
  | updated => exact ascending_filter incoming _
  | unchanged => exact ascending_filter incoming _
  | removed => exact ascending_filter (Ascending.isAscending_lastOf SourceFile.key existing) _

/-- Of the files that were fetched, the first ones with their keys are told. -/
theorem mem_fetched_filter {p : SourceFile → Bool} :
    k ∈ ((Ascending.firstOf SourceFile.key fetched).filter p).map SourceFile.key ↔
      ∃ new, find? k fetched = some new ∧ p new = true := by
  rw [Keyed.mem_map_filter (Ascending.isAscending_firstOf _ _).nodup_keys]
  exact exists_congr fun _ => and_congr_left' (by rw [Ascending.find?_firstOf, find?])

/-- Of the files on record, the last ones with their keys are told. -/
theorem mem_existing_filter {p : SourceFile → Bool} :
    k ∈ ((Ascending.lastOf SourceFile.key existing).filter p).map SourceFile.key ↔
      ∃ old, last? k existing = some old ∧ p old = true := by
  rw [Keyed.mem_map_filter (Ascending.isAscending_lastOf _ _).nodup_keys]
  exact exists_congr fun _ => and_congr_left' (by rw [Ascending.find?_lastOf, last?, find?])

theorem mem_created : k ∈ (merge existing fetched a).created ↔
    ∃ new, find? k fetched = some new ∧ last? k existing = none := by
  rw [merge, mem_fetched_filter]
  refine exists_congr fun new => and_congr_right fun found => ?_
  rw [(find?_eq_some found).2, find?_current, Option.isNone_iff_eq_none]

theorem mem_updated : k ∈ (merge existing fetched a).updated ↔
    ∃ new, find? k fetched = some new ∧ ∃ old, last? k existing = some old ∧ old.content ≠ new.content := by
  rw [merge, mem_fetched_filter]
  refine exists_congr fun new => and_congr_right fun found => ?_
  rw [isUpdate, (find?_eq_some found).2, find?_current]
  cases last? k existing <;> simp

theorem mem_unchanged : k ∈ (merge existing fetched a).unchanged ↔
    ∃ new, find? k fetched = some new ∧ ∃ old, last? k existing = some old ∧ old.content = new.content := by
  rw [merge, mem_fetched_filter]
  refine exists_congr fun new => and_congr_right fun found => ?_
  rw [isUnchanged, (find?_eq_some found).2, find?_current]
  cases last? k existing <;> simp

theorem mem_removed : k ∈ (merge existing fetched a).removed ↔
    ∃ old, last? k existing = some old ∧ find? k fetched = none := by
  rw [merge, mem_existing_filter]
  refine exists_congr fun old => and_congr_right fun found => ?_
  rw [(find?_eq_some found).2, find?_incoming, Option.isNone_iff_eq_none]

theorem mem_keys_iff (x : Fate) : k ∈ (merge existing fetched a).keys x ↔ fate? existing fetched k = some x := by
  cases x with
  | added =>
    refine mem_created.trans ?_
    rw [fate?]
    cases last? k existing <;> cases find? k fetched <;> simp [ite_eq_iff]
  | updated =>
    refine mem_updated.trans ?_
    rw [fate?]
    cases last? k existing <;> cases find? k fetched <;> simp
  | unchanged =>
    refine mem_unchanged.trans ?_
    rw [fate?]
    cases last? k existing <;> cases find? k fetched <;> simp
  | removed =>
    refine mem_removed.trans ?_
    rw [fate?]
    cases last? k existing <;> cases find? k fetched <;> simp [ite_eq_iff]

/-- A merge tells the fate of each key, and tells it once. -/
theorem sorts_keys (existing fetched : List SourceFile) (a : DigestAlgorithm) :
    Fate.Sorts (fate? existing fetched) (merge existing fetched a).keys where
  nodup x := (ordered_keys x).imp Ascending.ne_of_lt
  mem_iff x _ := mem_keys_iff x

/-- A merge joins what is on record with what was fetched. -/
theorem isJoin_merge (existing fetched : List SourceFile) (a : DigestAlgorithm) :
    IsJoin existing fetched (merge existing fetched a) where
  ascending := isAscending_files existing fetched a
  keys _ := mem_keys_files
  contents := by
    intro f hf
    obtain ⟨new, found, rfl⟩ := mem_files hf
    exact ⟨new, found, path_joined _ _ _, content_joined _ _ _⟩
  kept := by
    intro f hf old last
    obtain ⟨new, -, rfl⟩ := mem_files hf
    rw [key_joined, ← find?_current] at last
    exact identity_joined last
  named := by
    intro f hf unknown
    obtain ⟨new, -, rfl⟩ := mem_files hf
    rw [key_joined] at unknown ⊢
    have absent : find? new.key (Ascending.lastOf SourceFile.key existing) = none := by
      rw [find?_current, ← Option.not_isSome_iff_eq_none, isSome_last?]
      exact unknown
    exact id_joined absent
  ordered := ordered_keys
  fates x _ := mem_keys_iff x
  once := (sorts_keys existing fetched a).nodup_together
  together _ := (sorts_keys existing fetched a).mem_together.trans isSome_fate?

end Merge

end WorkflowCatalog
