import WorkflowCatalog.Proofs.Entries
import WorkflowCatalog.Proofs.Files
import WorkflowCatalog.Proofs.Surveys

/-!
# What is told is what is stored

Each version that a result tells of as added or updated is in the catalog when the call ends, however it ends, and
it is a copy of what the repository had at the reference that the call was to follow.
-/
namespace WorkflowCatalog

open Sync

/-- The listed version that a call follows: a refresh the first of the name that the entry accepts, an event or the
refresh of a version the first of the name. -/
def Call.followed? (r : Remote) (entry : Option String) (name : String) (vs : List RemoteVersion) :
    Call → Option RemoteVersion
  | refresh repository _ => (vs.filter (r.accepts repository entry)).find? fun v => v.name == name
  | _ => vs.find? fun v => v.name == name

/-- What a call finds for the version of that name of an entry. -/
structure Call.Finds (c : Context) (call : Call) (entry : Option String) (n : String) (s : VersionSource) : Prop where
  name : s.remote.name = n
  commit : ∃ vs v, c.world.remote.list call.repository = .ok vs ∧
    call.followed? c.world.remote entry n vs = some v ∧ s.remote.commitId = v.commitId
  text : c.world.remote.text call.repository n Manifest.path = .ok (some s.manifestText)
  declared : ∃ m, Manifest.parse s.manifestText = .ok m ∧ m.entry? entry = some s.declaration

theorem Manifest.entry?_eq_some_iff {text : String} {m : Manifest} (h : parse text = .ok m) {name : Option String}
    {d : Declaration} : m.entry? name = some d ↔ d ∈ m.entries ∧ d.name = name :=
  Keyed.find?_eq_some_iff (wellFormed_of_parse h).names

theorem find?_singleton_eq_some {α : Type} {p : α → Bool} {a b : α} (h : [a].find? p = some b) : b = a ∧ p a = true := by
  by_cases ha : p a = true <;> simp_all

namespace Reconcile

/-- The source that a job has for a version is what the call finds for it. -/
theorem Planned.finds {c : Context} {s : Store} {call : Call} {js : List Job} (h : Planned c s call (.jobs js))
    {j : Job} (hj : j ∈ js) {n : String} {source : VersionSource}
    (hs : j.sources.find? (fun s => s.remote.name == n) = some source) : call.Finds c j.path.name n source := by
  have name : source.remote.name = n := by simpa using List.find?_some hs
  cases h with
  | @push e reference p text m v _ _ _ manifest listed =>
    obtain ⟨d, hd, rfl⟩ := List.mem_map.mp hj
    obtain ⟨rfl, -⟩ := find?_singleton_eq_some hs
    obtain ⟨text, parsed⟩ := manifestOn_eq_ok manifest
    obtain ⟨vs, list, first⟩ := listedOn_eq_ok listed
    have named : v.name = reference.name := by simpa using List.find?_some first
    obtain rfl : reference.name = n := named.symm.trans name
    exact ⟨name, ⟨vs, v, list, first, rfl⟩, text, m, parsed,
      (Manifest.entry?_eq_some_iff parsed).mpr ⟨(List.mem_filter.mp hd).1, rfl⟩⟩
  | @refresh repository _ p vs survey _ listed surveyed =>
    obtain ⟨entry, -, rfl⟩ := List.mem_map.mp hj
    have member := List.mem_filter.mp (List.mem_of_find?_eq_some hs)
    have isSource := isSource_of_surveyOf surveyed source member.1
    obtain ⟨m, parsed, declared⟩ := isSource.declared
    refine ⟨name, ⟨vs, source.remote, listed, ?_, rfl⟩, name ▸ isSource.text, m, parsed,
      (Manifest.entry?_eq_some_iff parsed).mpr ⟨declared, beq_iff_eq.mp member.2⟩⟩
    rw [Call.followed?, ← remotes_of_surveyOf surveyed, List.find?_map]
    exact congrArg (Option.map VersionSource.remote) hs
  | @refreshVersion repository entry version _ p v text m d _ listed manifest declared =>
    obtain rfl := List.mem_singleton.mp hj
    obtain ⟨rfl, -⟩ := find?_singleton_eq_some hs
    obtain ⟨text, parsed⟩ := manifestOn_eq_ok manifest
    obtain ⟨vs, list, first⟩ := listedOn_eq_ok listed
    have named : v.name = version := by simpa using List.find?_some first
    obtain rfl : version = n := named.symm.trans name
    exact ⟨name, ⟨vs, v, list, first, rfl⟩, text, m, parsed, declared⟩

end Reconcile

/-- A version that is told as added or updated was built, and the entry was saved with it. -/
theorem Job.Effect.built {c : Context} {j : Job} {old last : Option Entry} {r : Except SyncError Unit}
    {out : List SyncResult} (h : j.Effect c old r last out)
    (path : ∀ e, old = some e → e.path = j.path) (distinct : ∀ e, old = some e → e.HasDistinctNames) {x : SyncResult}
    (hx : x ∈ out) {isNew : Bool} {n : String} (hn : n ∈ told isNew x) :
    x.entry = some j.path.toText ∧ ∃ e f v s files checks, last = some e ∧ e.version? n = some v ∧
      j.sources.find? (fun s => s.remote.name == n) = some s ∧ Build.IsBuilt c f s v files checks ∧ f.path = j.path ∧
      (f.version? n = old.bind fun e => e.version? n) ∧ e.SameCore f ∧ ∀ g, old = some g → f.SameCore g := by
  obtain ⟨before, new, d, done, begins, made, saved, hn, entry⟩ := h.of_told hx hn
  have first := Job.distinct_firstWork (j := j) (d := d) (begins.distinct distinct)
  have names := VersionDiff.nodup_of_prefix begins.compared first made
  have nothing_first : told isNew (j.firstWork before d).result = [] := by cases isNew <;> rfl
  rw [mem_told_progress first names, nothing_first] at hn
  obtain ⟨change, v, rebuilt⟩ := hn.resolve_left List.not_mem_nil
  obtain ⟨s, source, rfl, answer⟩ := source_of_rebuilt? rebuilt
  obtain ⟨files, checks, built⟩ := Build.isBuilt_of_answer answer
  refine ⟨entry, _, _, v, s, files, checks, saved, ?_, source, built, ?_, ?_, core_progress c j.sources _ done, ?_⟩
  · rw [← Change.name_build isNew s.remote.name, version?_progress_of_mem first names change]
    rw [after_build, rebuilt]
    rfl
  · exact (sameCore_withSettings before j.sources).path.trans (begins.path path)
  · rw [Job.version?_firstWork, begins.version?]
  · rintro g rfl
    exact begins.eq ▸ sameCore_withSettings before j.sources

namespace Reconcile

/-- A job stores a copy of each version that it tells of. -/
theorem Planned.mirrors {c : Context} {s t : Store} {call : Call} {js : List Job} (h : Planned c s call (.jobs js))
    (hs : s.WellFormed) {j : Job} (hj : j ∈ js) {r : Except SyncError Unit} {last : Option Entry} {out : List SyncResult}
    (part : Job.Effects.Part c j s t r last out) {x : SyncResult} (hx : x ∈ out) {isNew : Bool} {n : String}
    (hn : n ∈ told isNew x) :
    x.entry = some j.path.toText ∧ ∃ source v, (t.entry? j.path).bind (fun e => e.version? n) = some v ∧
      call.Finds c j.path.name n source ∧
        v.Mirrors c call.repository source ((s.entry? j.path).bind fun e => e.version? n) := by
  obtain ⟨entry, e, f, v, source, files, checks, saved, version, hsource, built, path, earlier, -⟩ :=
    part.effect.built (fun e found => (hs.entry?_eq_some_iff.mp found).2)
      (fun e found => (hs.entries.entry? found).distinct) hx hn
  have finds := h.finds hj hsource
  refine ⟨entry, source, v, ?_, finds, ?_⟩
  · rw [part.entry?, saved]
    exact version
  · have repository : f.path.repositoryPath = call.repository := by
      rw [path]
      exact h.address_jobs j hj
    obtain ⟨m, parsed, declared⟩ := finds.declared
    have valid := (Manifest.wellFormed_of_parse parsed).entries _ ((Manifest.entry?_eq_some_iff parsed).mp declared).1
    obtain rfl := finds.name
    rw [← earlier, ← repository]
    refine Version.mirrors_of_isBuilt built valid (repository ▸ finds.text) fun w found => ?_
    rw [earlier] at found
    obtain ⟨e, he, hw⟩ := Option.bind_eq_some_iff.mp found
    exact (hs.entries.entry? he).ascending w (List.mem_of_find?_eq_some hw)

/-- In a catalog that can come about, each version that a result of a call tells of as added or updated is a copy of
what the repository has at the reference that the call follows. -/
theorem told_version_mirrors {s : Store} (h : s.Reachable) (c : Context) (call : Call) {x : SyncResult}
    (hx : x ∈ (run c s call).results) {n : String} (hn : n ∈ x.added ∨ n ∈ x.updated) :
    ∃ (p q : EntryPath) (source : VersionSource) (v : Version),
      repositoryPath call.repository = .ok p ∧ q.sameRepository p = true ∧ x.entry = some q.toText ∧
        ((run c s call).store.entry? q).bind (fun e => e.version? n) = some v ∧ call.Finds c q.name n source ∧
        v.Mirrors c call.repository source ((s.entry? q).bind fun e => e.version? n) := by
  have hs := h.wellFormed
  obtain ⟨isNew, hn⟩ : ∃ isNew, n ∈ told isNew x := hn.elim (fun h => ⟨true, h⟩) fun h => ⟨false, h⟩
  obtain ⟨js, planned, j, hj, _, _, _, part, hx⟩ := part_of_told hs hx hn
  obtain ⟨entry, source, v, stored, finds, mirrors⟩ := planned.mirrors hs hj part hx hn
  obtain ⟨p, repository, paths⟩ := planned.path_of_jobs
  exact ⟨p, j.path, source, v, repository, EntryPath.sameRepository_iff.mpr (paths j hj), entry, stored, finds, mirrors⟩

/-- The small catalog has a copy of its branch after it has moved. -/
theorem sample_version_mirrors :
    let c := Sample.context [{ Sample.main with commitId := "c2" }]
    ∃ x ∈ (run c Sample.refreshed.1 Sample.refresh).results, "main" ∈ x.updated ∧
      ∃ (p q : EntryPath) (source : VersionSource) (v : Version),
        repositoryPath "org/repo" = .ok p ∧ q.sameRepository p = true ∧ x.entry = some q.toText ∧
          ((run c Sample.refreshed.1 Sample.refresh).store.entry? q).bind (fun e => e.version? "main") = some v ∧
          Sample.refresh.Finds c q.name "main" source ∧
          v.Mirrors c "org/repo" source ((Sample.refreshed.val.entry? q).bind fun e => e.version? "main") := by
  intro c
  have updated : (run c Sample.refreshed.1 Sample.refresh).results.any (fun x => x.updated.contains "main") = true := by
    decide +kernel
  obtain ⟨x, hx, named⟩ := List.any_eq_true.mp updated
  have named : "main" ∈ x.updated := List.contains_iff_mem.mp named
  exact ⟨x, hx, named, told_version_mirrors Sample.refreshed.2 c Sample.refresh hx (.inr named)⟩

end Reconcile

end WorkflowCatalog
