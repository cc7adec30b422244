import WorkflowCatalog.EntryPath
import WorkflowCatalog.Keyed
import WorkflowCatalog.Version

/-!
# Entries of the catalog

An entry is a workflow or service with the versions that are known of it, one a name.
-/
namespace WorkflowCatalog

structure Entry where
  id : String
  path : EntryPath
  kind : EntryKind
  language : Language
  defaultDescriptorPath : String
  defaultTestParameterPath : Option String
  published : Bool
  authors : List String
  versions : List Version
deriving DecidableEq, Repr

namespace Entry

/-- An entry without versions. -/
def new (path : EntryPath) (kind : EntryKind) (l : Language) (descriptorPath : String) : Entry where
  id := path.entryId
  path := path
  kind := kind
  language := l
  defaultDescriptorPath := descriptorPath
  defaultTestParameterPath := none
  published := false
  authors := []
  versions := []

def version? (e : Entry) (name : String) : Option Version := e.versions.find? fun v => v.name == name

end Entry

/-- Leaves out the first version of that name. -/
def Version.remove (name : String) (vs : List Version) : List Version := vs.eraseP fun v => v.name == name

/-- Where no name occurs twice, nothing of that name is left. -/
theorem Version.remove_eq_filter {vs : List Version} (h : (vs.map Version.name).Nodup) (name : String) :
    Version.remove name vs = vs.filter fun v => v.name ≠ name := by
  induction vs with
  | nil => rfl
  | cons v vs ih =>
    rw [List.map_cons, List.nodup_cons] at h
    by_cases hv : v.name = name
    · have rest : vs.filter (fun w => w.name ≠ name) = vs := by
        rw [List.filter_eq_self]
        intro w hw
        exact decide_eq_true fun e => h.1 (List.mem_map.mpr ⟨w, hw, e.trans hv.symm⟩)
      rw [List.filter_cons_of_neg (by simp [hv]), rest]
      exact List.eraseP_cons_of_pos (by simp [hv])
    · rw [List.filter_cons_of_pos (by simp [hv]), ← ih h.2]
      exact List.eraseP_cons_of_neg (by simp [hv])

namespace Entry

/-- Replaces the first version of the same name, or adds one at the end. -/
def upsert (e : Entry) (v : Version) : Entry := { e with versions := Keyed.upsert Version.name v e.versions }

def remove (e : Entry) (name : String) : Entry := { e with versions := Version.remove name e.versions }

@[simp] theorem versions_upsert (e : Entry) (v : Version) :
    (e.upsert v).versions = Keyed.upsert Version.name v e.versions := rfl

@[simp] theorem versions_remove (e : Entry) (name : String) :
    (e.remove name).versions = Version.remove name e.versions := rfl

/-- Locks a version. -/
def freeze (e : Entry) (v : Version) : Entry := e.upsert { v with frozen := true }

/-- No two versions have one name. -/
def HasDistinctNames (e : Entry) : Prop := (e.versions.map Version.name).Nodup

theorem version?_eq_some_iff {e : Entry} (h : e.HasDistinctNames) {name : String} {v : Version} :
    e.version? name = some v ↔ v ∈ e.versions ∧ v.name = name :=
  Keyed.find?_eq_some_iff h

theorem version?_eq_none_iff {e : Entry} {name : String} :
    e.version? name = none ↔ ∀ v ∈ e.versions, v.name ≠ name := by
  simp [version?, List.find?_eq_none]

theorem version?_upsert (e : Entry) (v : Version) (name : String) :
    (e.upsert v).version? name = if v.name = name then some v else e.version? name :=
  Keyed.find?_upsert Version.name v e.versions name

theorem version?_remove {e : Entry} (h : e.HasDistinctNames) (removed name : String) :
    (e.remove removed).version? name = if removed = name then none else e.version? name := by
  simp only [version?, versions_remove, Version.remove_eq_filter h, List.find?_filter]
  split
  · rename_i hr
    simp [hr]
  · rename_i hr
    congr 1
    funext v
    by_cases hv : v.name = name
    · simp [hv, Ne.symm hr]
    · simp [hv]

theorem HasDistinctNames.upsert {e : Entry} (h : e.HasDistinctNames) (v : Version) : (e.upsert v).HasDistinctNames :=
  Keyed.nodup_keys_upsert h v

theorem HasDistinctNames.remove {e : Entry} (h : e.HasDistinctNames) (name : String) :
    (e.remove name).HasDistinctNames :=
  (List.eraseP_sublist.map Version.name).nodup h

end Entry

end WorkflowCatalog
