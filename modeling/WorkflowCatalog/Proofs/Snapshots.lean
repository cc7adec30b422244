import WorkflowCatalog.Proofs.Surveys
import WorkflowCatalog.Snapshot

/-!
# Snapshots as remotes

A snapshot answers whatever is asked about a version that it lists, if the name of the version cannot be taken for a
full reference. So the sources of a call are known beforehand: those of each listed version, as its manifest has them.
-/
namespace WorkflowCatalog

namespace GitReference

theorem split?_toText {r : GitReference} (type : r.type = .branch ∨ r.type = .tag) :
    split? r.toText.toList = some (r.type, r.name.toList) := by
  obtain ⟨type', name⟩ := r
  simp only [toText, String.toList_append, String.toList_ofList, split?]
  rcases type with rfl | rfl
  · simp [Text.dropMark?_append]
  · have other : Text.dropMark? branchMark (tagMark ++ name.toList) = none := rfl
    simp [other, Text.dropMark?_append]

/-- A branch or tag is told by its full reference. -/
theorem parse_toText {r : GitReference} (type : r.type = .branch ∨ r.type = .tag)
    (valid : isName r.name.toList = true) : parse r.toText = .ok r := by
  simp only [parse, split?_toText type, valid, if_true, String.ofList_toList]

end GitReference

/-- The remote answers whatever file is asked for at a reference. -/
def Remote.Answers (r : Remote) (repository reference : String) : Prop :=
  ∀ path, ∃ found, r.text repository reference path = .ok found

/-- A branch or tag whose name is valid and not in full. -/
structure SnapshotVersion.IsShort (v : SnapshotVersion) : Prop where
  type : v.referenceType = .branch ∨ v.referenceType = .tag
  valid : GitReference.isName v.name.toList = true
  short : GitReference.split? v.name.toList = none

/-- The version as it is listed. -/
def SnapshotVersion.listed (v : SnapshotVersion) : RemoteVersion := ⟨v.name, v.referenceType, v.commitId, none⟩

namespace Snapshot

variable {snap : Snapshot} {repository : String} {vs : List SnapshotVersion}

theorem list_remote (known : snap.versions? repository = some vs) :
    snap.remote.list repository = .ok (vs.map SnapshotVersion.listed) := by
  change snap.list repository = _
  rw [list, Snapshot.repository, known]
  rfl

theorem answers_remote (known : snap.versions? repository = some vs) {v : SnapshotVersion} (hv : v ∈ vs)
    (short : GitReference.split? v.name.toList = none) : snap.remote.Answers repository v.name := by
  intro path
  have there : (vs.find? fun w => w.name == v.name).isSome = true := List.find?_isSome.mpr ⟨v, hv, beq_self_eq_true _⟩
  obtain ⟨w, hw⟩ := Option.isSome_iff_exists.mp there
  have name : GitReference.short v.name = v.name := by rw [GitReference.short, short]
  refine ⟨((w.files.lookup (Path.normalize path)).map String.toUTF8).map Text.ofBytes, ?_⟩
  have answer : snap.file repository v.name path = .ok ((w.files.lookup (Path.normalize path)).map String.toUTF8) := by
    simp only [file, Snapshot.repository, known, name, bind, Except.bind, hw]
    rfl
  rw [Remote.text]
  change (snap.file repository v.name path).map _ = _
  rw [answer]
  rfl

theorem describe_remote (known : snap.versions? repository = some vs) (distinct : (vs.map SnapshotVersion.name).Nodup)
    {v : SnapshotVersion} (hv : v ∈ vs) : snap.remote.describe repository v.name = .ok (some v.listed) := by
  have first : vs.find? (fun w => w.name == v.name) = some v := (Keyed.find?_eq_some_iff distinct).mpr ⟨hv, rfl⟩
  rw [Remote.describe, list_remote known]
  simp only [Except.map, List.find?_map]
  exact congrArg (fun found => Except.ok (Option.map SnapshotVersion.listed found)) first

end Snapshot

namespace Reconcile

/-- What the manifest at a listed version says of the entries that accept the version. -/
def sourcesOn (r : Remote) (repository : String) (v : RemoteVersion) : List VersionSource :=
  match r.text repository v.name Manifest.path with
  | .ok found => (surveyed v found).sources
  | .error _ => []

variable {r : Remote} {repository : String} {vs : List RemoteVersion} {s : Survey}

/-- A survey has the sources of each listed version, one after the other. -/
theorem sources_of_surveyOf (h : surveyOf r repository vs = .ok s) :
    s.sources = vs.flatMap (sourcesOn r repository) := by
  induction vs generalizing s with
  | nil =>
    obtain rfl := Except.ok.inj h
    rfl
  | cons v vs ih =>
    obtain ⟨found, rest, hf, hr, rfl⟩ := surveyOf_cons_eq_ok h
    rw [List.flatMap_cons, ← ih hr, sourcesOn, hf]

/-- Where the remote answers, a survey comes to its end. -/
theorem surveyOf_eq_ok (answers : ∀ v ∈ vs, r.Answers repository v.name) : ∃ s, surveyOf r repository vs = .ok s := by
  induction vs with
  | nil => exact ⟨_, rfl⟩
  | cons v vs ih =>
    rw [List.forall_mem_cons] at answers
    obtain ⟨found, hf⟩ := answers.1 Manifest.path
    obtain ⟨rest, hr⟩ := ih answers.2
    rw [surveyOf, hf, hr]
    exact ⟨_, rfl⟩

end Reconcile

end WorkflowCatalog
