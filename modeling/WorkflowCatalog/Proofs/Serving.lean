import WorkflowCatalog.Proofs.Encoding
import WorkflowCatalog.Proofs.Mirrors
import WorkflowCatalog.Proofs.Snapshots

/-!
# What a snapshot serves for the versions that it lists

A snapshot that was built version by version lists no name twice, and has one content at most for each canonical path of
a version. So a listed version is described as it is listed. Files are handed out by the short name of what is asked
for: the files of a listed version are those that are served at its name if the name is short itself. At a name that
looks like a full reference, those of the version of the short name are served.
-/
namespace WorkflowCatalog

theorem mem_of_lookup_eq_some {κ α : Type} [BEq κ] [LawfulBEq κ] {xs : List (κ × α)} {k : κ} {a : α}
    (h : xs.lookup k = some a) : (k, a) ∈ xs := by
  obtain ⟨before, after, rfl, -⟩ := List.lookup_eq_some_iff.mp h
  simp

theorem lookup_of_mem {κ α : Type} [BEq κ] [LawfulBEq κ] {xs : List (κ × α)} (distinct : (xs.map Prod.fst).Nodup)
    {k : κ} {a : α} (h : (k, a) ∈ xs) : xs.lookup k = some a := by
  obtain ⟨before, after, rfl⟩ := List.append_of_mem h
  refine List.lookup_eq_some_iff.mpr ⟨before, after, rfl, fun p hp => ?_⟩
  rw [List.map_append, List.map_cons, List.nodup_append] at distinct
  have other := distinct.2.2 p.1 (List.mem_map_of_mem hp) k List.mem_cons_self
  simpa using Ne.symm other

namespace Snapshot

/-! ## Snapshots as they are built -/

/-- A change to a snapshot. -/
inductive Edit
  | set (repository name : String) (type : ReferenceType) (commitId : String) (files : List (String × String))
  | remove (repository name : String)

def edit (s : Snapshot) : Edit → Snapshot
  | .set repository name type commitId files => s.setVersion repository ⟨name, type, commitId, filesOf files⟩
  | .remove repository name => s.removeVersion repository name

/-- What changes make of the empty snapshot, one after the other. -/
def built (edits : List Edit) : Snapshot := edits.foldl edit empty

/-- The versions of a repository can be told from one another, and so can the files of a version. -/
structure IsClear (vs : List SnapshotVersion) : Prop where
  names : (vs.map SnapshotVersion.name).Nodup
  paths : ∀ v ∈ vs, (v.files.map Prod.fst).Nodup

theorem isClear_nil : IsClear [] := ⟨List.Pairwise.nil, List.forall_mem_nil _⟩

theorem nodup_filesOf (files : List (String × String)) : ((filesOf files).map Prod.fst).Nodup :=
  (Ascending.isAscending_lastOf _ _).nodup_keys

theorem IsClear.upsert {vs : List SnapshotVersion} (h : IsClear vs) {v : SnapshotVersion}
    (paths : (v.files.map Prod.fst).Nodup) : IsClear (Keyed.upsert SnapshotVersion.name v vs) where
  names := Keyed.nodup_keys_upsert h.names v
  paths := by
    intro w hw
    rcases Keyed.mem_of_mem_upsert hw with rfl | old
    · exact paths
    · exact h.paths w old

theorem IsClear.filter {vs : List SnapshotVersion} (h : IsClear vs) (p : SnapshotVersion → Bool) :
    IsClear (vs.filter p) where
  names := (List.filter_sublist.map SnapshotVersion.name).nodup h.names
  paths := fun v hv => h.paths v (List.mem_filter.mp hv).1

/-- A change keeps all repositories clear. -/
theorem isClear_edit {s : Snapshot} (h : ∀ r ∈ s.repositories, IsClear r.2) (e : Edit) :
    ∀ r ∈ (s.edit e).repositories, IsClear r.2 := by
  cases e with
  | set repository name type commitId files =>
    have before : IsClear ((s.versions? repository).getD []) := by
      cases known : s.versions? repository with
      | none => exact isClear_nil
      | some vs => exact h (repository, vs) (mem_of_lookup_eq_some known)
    intro r hr
    rcases Ascending.mem_of_mem_put hr with rfl | old
    · exact before.upsert (nodup_filesOf files)
    · exact h r old
  | remove repository name =>
    intro r hr
    obtain ⟨old, hold, rfl⟩ := List.mem_map.mp hr
    split
    · exact (h old hold).filter _
    · exact h old hold

theorem isClear_edits {s : Snapshot} (h : ∀ r ∈ s.repositories, IsClear r.2) (edits : List Edit) :
    ∀ r ∈ (edits.foldl edit s).repositories, IsClear r.2 := by
  induction edits generalizing s with
  | nil => exact h
  | cons e edits ih => exact ih (isClear_edit h e)

theorem isClear_of_built {edits : List Edit} {repository : String} {vs : List SnapshotVersion}
    (known : (built edits).versions? repository = some vs) : IsClear vs :=
  isClear_edits (List.forall_mem_nil _) edits (repository, vs) (mem_of_lookup_eq_some known)

/-! ## What is handed out -/

/-- At a reference, the files of a version are handed out: what it stores at the canonical form of a path, or nothing. -/
structure Serves (s : Snapshot) (repository reference : String) (v : SnapshotVersion) : Prop where
  stored : ∀ path content, (Path.normalize path, content) ∈ v.files →
    s.remote.file repository reference path = .ok (some content.toUTF8)
  absent : ∀ path, (∀ content, (Path.normalize path, content) ∉ v.files) →
    s.remote.file repository reference path = .ok none

section Listed

variable {s : Snapshot} {repository reference : String} {vs : List SnapshotVersion} {v : SnapshotVersion}

theorem serves_of_short (known : s.versions? repository = some vs) (clear : IsClear vs) (hv : v ∈ vs)
    (name : v.name = GitReference.short reference) : s.Serves repository reference v := by
  have first : vs.find? (fun w => w.name == GitReference.short reference) = some v :=
    (Keyed.find?_eq_some_iff clear.names).mpr ⟨hv, name⟩
  have answer : ∀ path, s.remote.file repository reference path =
      .ok ((v.files.lookup (Path.normalize path)).map String.toUTF8) := by
    intro path
    change s.file repository reference path = _
    simp only [file, Snapshot.repository, known, bind, Except.bind, first]
    rfl
  constructor
  · intro path content stored
    rw [answer, lookup_of_mem (clear.paths v hv) stored]
    rfl
  · intro path absent
    have none : v.files.lookup (Path.normalize path) = none := by
      cases found : v.files.lookup (Path.normalize path) with
      | none => rfl
      | some content => exact absurd (mem_of_lookup_eq_some found) (absent content)
    rw [answer, none]
    rfl

theorem file_of_unlisted (known : s.versions? repository = some vs)
    (unlisted : ∀ w ∈ vs, w.name ≠ GitReference.short reference) (path : String) :
    s.remote.file repository reference path = .error (.remoteFetch repository reference path "unknown reference") := by
  have none : vs.find? (fun w => w.name == GitReference.short reference) = none :=
    List.find?_eq_none.mpr fun w hw => by simpa using unlisted w hw
  change s.file repository reference path = _
  simp only [file, Snapshot.repository, known, bind, Except.bind, none]
  rfl

/-- A text that is handed out is stored. -/
theorem Serves.mem_of_text (h : s.Serves repository reference v) {path text : String}
    (answer : s.remote.text repository reference path = .ok (some text)) : (Path.normalize path, text) ∈ v.files := by
  by_cases stored : ∃ content, (Path.normalize path, content) ∈ v.files
  · obtain ⟨content, stored⟩ := stored
    rw [Remote.text, h.stored path content stored] at answer
    have same : Text.ofBytes content.toUTF8 = text := Option.some.inj (Except.ok.inj answer)
    rw [Text.ofBytes_toUTF8] at same
    exact same ▸ stored
  · have absent := h.absent path (not_exists.mp stored)
    rw [Remote.text, absent] at answer
    cases answer

end Listed

end Snapshot

open Snapshot

/-- The contents that a call stores for a version are those that were served at its name. -/
theorem Reconcile.told_version_served {snap : Snapshot} {c : Context} (remote : c.world.remote = snap.remote)
    {s : Store} (h : s.Reachable) (call : Call) {v : SnapshotVersion} (serves : snap.Serves call.repository v.name v)
    {x : SyncResult} (hx : x ∈ (run c s call).results) (told : v.name ∈ x.added ∨ v.name ∈ x.updated) :
    ∃ q u, x.entry = some q.toText ∧
      ((run c s call).store.entry? q).bind (fun e => e.version? v.name) = some u ∧
      ∀ f ∈ u.sourceFiles, ∃ content, f.content = some content ∧ (Path.normalize f.absolutePath, content) ∈ v.files := by
  obtain ⟨p, q, source, u, -, -, entry, stored, finds, mirrors⟩ := told_version_mirrors h c call hx told
  refine ⟨q, u, entry, stored, fun f hf => ?_⟩
  obtain ⟨text, content, answer⟩ := mirrors.contents f hf
  rw [remote, finds.name] at answer
  exact ⟨text, content, serves.mem_of_text answer⟩

/-- A snapshot describes each version that it lists as that version. At its name, the files of the version of the short
name are served, so its own if the name is short; then a call that follows the version stores its files and no others. -/
theorem Snapshot.listed_version_served (edits : List Edit) (repository : String) {vs : List SnapshotVersion}
    (known : (built edits).versions? repository = some vs) {v : SnapshotVersion} (hv : v ∈ vs) :
    (built edits).remote.describe repository v.name = .ok (some v.listed) ∧
    (∀ w ∈ vs, w.name = GitReference.short v.name → (built edits).Serves repository v.name w) ∧
    ((∀ w ∈ vs, w.name ≠ GitReference.short v.name) → ∀ path, (built edits).remote.file repository v.name path =
      .error (.remoteFetch repository v.name path "unknown reference")) ∧
    (GitReference.short v.name = v.name → (built edits).Serves repository v.name v ∧
      ∀ (c : Context) (s : Store) (call : Call), c.world.remote = (built edits).remote → s.Reachable →
        call.repository = repository → ∀ x ∈ (Reconcile.run c s call).results, v.name ∈ x.added ∨ v.name ∈ x.updated →
        ∃ q u, x.entry = some q.toText ∧
          ((Reconcile.run c s call).store.entry? q).bind (fun e => e.version? v.name) = some u ∧
          ∀ f ∈ u.sourceFiles, ∃ content, f.content = some content ∧
            (Path.normalize f.absolutePath, content) ∈ v.files) := by
  have clear := isClear_of_built known
  refine ⟨describe_remote known clear.names hv, fun w hw name => serves_of_short known clear hw name,
    fun unlisted path => file_of_unlisted known unlisted path, fun short => ?_⟩
  have serves : (built edits).Serves repository v.name v := serves_of_short known clear hv short.symm
  refine ⟨serves, fun c s call remote reachable same x hx told => ?_⟩
  subst same
  exact Reconcile.told_version_served remote reachable call serves hx told

namespace Sample

/-- The branch, whose manifest has one entry. -/
def plain : SnapshotVersion := ⟨"main", .branch, "c1", filesOf [(Manifest.path, manifest), ("m", "task m \x7b\x7d")]⟩

/-- A branch whose name looks like the full reference of the other one. -/
def nested : SnapshotVersion :=
  ⟨"refs/heads/main", .branch, "c2", filesOf [(Manifest.path, manifest), ("/m", "task n \x7b\x7d")]⟩

def edits : List Edit :=
  [.set "org/repo" "main" .branch "c1" [(Manifest.path, manifest), ("m", "task m \x7b\x7d")],
    .set "org/repo" "old" .tag "c0" [], .remove "org/repo" "old",
    .set "org/repo" "refs/heads/main" .branch "c2" [(Manifest.path, manifest), ("/m", "task n \x7b\x7d")]]

theorem versions?_edits : (built edits).versions? "org/repo" = some [plain, nested] := by decide +kernel

/-- The small catalog follows the snapshot. -/
def following : Context := { context [] with world := { (context []).world with remote := (built edits).remote } }

end Sample

theorem Snapshot.sample_version_served :
    (built Sample.edits).remote.describe "org/repo" "main" = .ok (some Sample.plain.listed) ∧
    (built Sample.edits).remote.file "org/repo" "main" "x/../m" = .ok (some "task m \x7b\x7d".toUTF8) ∧
    ∃ q u, ((Reconcile.run Sample.following Sample.registered.1 Sample.refresh).store.entry? q).bind
        (fun e => e.version? "main") = some u ∧
      ∀ f ∈ u.sourceFiles, ∃ content, f.content = some content ∧
        (Path.normalize f.absolutePath, content) ∈ Sample.plain.files := by
  have served := listed_version_served Sample.edits "org/repo" Sample.versions?_edits (v := Sample.plain) (by simp)
  obtain ⟨serves, stored⟩ := served.2.2.2 (by decide)
  have added : (Reconcile.run Sample.following Sample.registered.1 Sample.refresh).results.any
      (fun x => x.added.contains "main") = true := by decide +kernel
  obtain ⟨x, hx, named⟩ := List.any_eq_true.mp added
  obtain ⟨q, u, -, found, contents⟩ := stored Sample.following Sample.registered.1 Sample.refresh rfl
    Sample.registered.2 rfl x hx (.inl (List.contains_iff_mem.mp named))
  exact ⟨served.1, serves.stored "x/../m" "task m \x7b\x7d" (by decide +kernel), q, u, found, contents⟩

/-- The branch is described by its name, but at its name the files of the other branch are served, and a refresh stores
them for it. -/
theorem Snapshot.sample_nested_name_served :
    (built Sample.edits).remote.describe "org/repo" Sample.nested.name = .ok (some Sample.nested.listed) ∧
    ("/m", "task n \x7b\x7d") ∈ Sample.nested.files ∧
    ¬ (built Sample.edits).Serves "org/repo" Sample.nested.name Sample.nested ∧
    (((Reconcile.run Sample.following Sample.registered.1 Sample.refresh).store.entry? Sample.path).bind
      fun e => e.version? Sample.nested.name).map (fun u => (u.commitId, u.sourceFiles.map fun f => f.content)) =
        some (some "c2", [some "task m \x7b\x7d", some Sample.manifest]) := by
  have stored : ("/m", "task n \x7b\x7d") ∈ Sample.nested.files := by decide +kernel
  refine ⟨rfl, stored, fun serves => ?_, by decide +kernel⟩
  have answer := serves.stored "/m" "task n \x7b\x7d" stored
  have other : (built Sample.edits).remote.text "org/repo" Sample.nested.name "/m" = .ok (some "task m \x7b\x7d") := by
    decide +kernel
  rw [Remote.text, answer] at other
  have same : Text.ofBytes "task n \x7b\x7d".toUTF8 = "task m \x7b\x7d" := Option.some.inj (Except.ok.inj other)
  rw [Text.ofBytes_toUTF8] at same
  exact absurd same (by decide)

end WorkflowCatalog
