import WorkflowCatalog.Proofs.Entries
import WorkflowCatalog.Proofs.Surveys

/-!
# Why a version is gone

The versions that a call takes away are those that a delete event names, and those that a refresh has looked
for everywhere and not found. Whatever goes wrong on the way, a version that is still listed stays.
-/
namespace WorkflowCatalog

open Sync

/-- A version that is gone after several changes was removed by one of them. -/
theorem Sync.remove_mem_of_gone {c : Context} {sources : List VersionSource} {w : Work} {done : List Change}
    (distinct : w.entry.HasDistinctNames) (names : (done.map Change.name).Nodup) {n : String} {v : Version}
    (found : w.entry.version? n = some v) (gone : (progress c sources w done).entry.version? n = none) :
    .remove n ∈ done := by
  by_cases hn : ∃ change ∈ done, change.name = n
  · obtain ⟨change, hc, rfl⟩ := hn
    rw [version?_progress_of_mem distinct names hc] at gone
    cases change with
    | remove name => exact hc
    | build isNew name =>
      rw [after_build, Option.or_eq_none_iff] at gone
      rw [Change.name_build, gone.2] at found
      exact nomatch found
  · rw [version?_progress_of_not_mem distinct fun change hc name => hn ⟨change, hc, name⟩, found] at gone
    exact nomatch gone

namespace Reconcile

/-- Why a call may take a version away from the entry of that name in its repository. -/
inductive Removable (c : Context) (entry : Option String) (version : String) : Call → Prop
  | deleted {e : WebhookEvent} {reference : GitReference} (type : e.type = .delete)
      (parsed : GitReference.parse e.gitReference = .ok reference) (named : reference.name = version) :
      Removable c entry version (.event e)
  | unlisted {repository username : String} {vs : List RemoteVersion} (listed : c.world.remote.list repository = .ok vs)
      (fetched : ∀ r ∈ vs, ∃ text, c.world.remote.text repository r.name Manifest.path = .ok text)
      (absent : ∀ r ∈ vs, r.name = version →
        c.world.remote.isUnreadable repository r = false ∧ c.world.remote.accepts repository entry r = false) :
      Removable c entry version (.refresh repository username)

/-- A job that looks at everything is one of a refresh, and what it does not know of is nowhere. -/
theorem Planned.removable {c : Context} {s : Store} {call : Call} {js : List Job} (h : Planned c s call (.jobs js))
    {j : Job} (hj : j ∈ js) {n : String} (mode : j.mode = .fullSync) (unlisted : ∀ r ∈ j.listing.versions, r.name ≠ n)
    (unprotected : n ∉ j.listing.protectedNames) : Removable c j.path.name n call := by
  cases h with
  | push _ _ _ _ _ =>
    obtain ⟨d, -, rfl⟩ := List.mem_map.mp hj
    exact nomatch mode
  | refreshVersion _ _ _ _ =>
    obtain rfl := List.mem_singleton.mp hj
    exact nomatch mode
  | @refresh repository _ p vs survey _ listed surveyed =>
    obtain ⟨name, -, rfl⟩ := List.mem_map.mp hj
    refine .unlisted listed (fetched_of_surveyOf surveyed) fun r hr e => ⟨?_, ?_⟩
    · rw [refreshJob, Survey.listingOf, unreadable_of_surveyOf surveyed] at unprotected
      exact Bool.eq_false_iff.mpr fun unreadable =>
        unprotected (List.mem_map.mpr ⟨r, List.mem_filter.mpr ⟨hr, unreadable⟩, e⟩)
    · simp only [refreshJob, Survey.listingOf, remotes_of_surveyOf surveyed] at unlisted
      exact Bool.eq_false_iff.mpr fun accepted => unlisted r (List.mem_filter.mpr ⟨hr, accepted⟩) e

/-- A version that is gone after a job was looked for everywhere. -/
theorem Planned.removable_of_gone {c : Context} {s : Store} {call : Call} {js : List Job}
    (h : Planned c s call (.jobs js)) {j : Job} (hj : j ∈ js) {e : Entry} (distinct : e.HasDistinctNames)
    {r : Except SyncError Unit} {last : Option Entry} {out : List SyncResult} (effect : j.Effect c (some e) r last out)
    {n : String} {v : Version} (version : e.version? n = some v)
    (gone : ∀ f, last.or (some e) = some f → f.version? n = none) :
    v.frozen = false ∧ Removable c j.path.name n call := by
  obtain rfl | ⟨before, isNew, d, done, begins, made, rfl⟩ := effect.last_eq
  · rw [gone e rfl] at version
    exact nomatch version
  · obtain rfl := begins.eq
    have first := Job.distinct_firstWork (j := j) (d := d) distinct
    have names := VersionDiff.nodup_of_prefix begins.compared first made
    have removed := remove_mem_of_gone first names (by rw [Job.version?_firstWork, version]) (gone _ rfl)
    cases (VersionDiff.mem_changes begins.compared).mp (made.subset removed) with
    | removed mode unlisted unprotected member mutable =>
      have found := (Entry.version?_eq_some_iff first).mpr ⟨member, rfl⟩
      rw [Job.version?_firstWork, version, Option.some.injEq] at found
      subst found
      exact ⟨mutable, h.removable hj mode unlisted unprotected⟩

theorem removable_of_gone {s : Store} (hs : s.WellFormed) {c : Context} {call : Call} {p : EntryPath} {e : Entry}
    (entry : s.entry? p = some e) {n : String} {v : Version} (version : e.version? n = some v)
    (gone : ∀ f, (run c s call).store.entry? p = some f → f.version? n = none) :
    v.frozen = false ∧ (∃ q, repositoryPath call.repository = .ok q ∧ p.sameRepository q = true) ∧
      Removable c p.name n call := by
  have distinct := (hs.entries.entry? entry).distinct
  have turn := turn_run hs c call p
  generalize (run c s call).store.entry? p = new at turn gone
  cases turn with
  | same =>
    rw [gone e entry] at version
    exact nomatch version
  | @worked _ j _ _ _ planned job path effect =>
    rw [entry] at effect gone
    subst path
    obtain ⟨mutable, removable⟩ := planned.removable_of_gone job distinct effect version gone
    obtain ⟨q, repository, paths⟩ := planned.path_of_jobs
    exact ⟨mutable, ⟨q, repository, EntryPath.sameRepository_iff.mpr (paths j job)⟩, removable⟩
  | @cut name _ f _ planned entry' member version' mutable =>
    rw [entry, Option.some.injEq] at entry'
    subst entry'
    have lost := gone _ rfl
    rw [Entry.version?_remove distinct] at lost
    split at lost
    · rename_i named
      subst named
      rw [version, Option.some.injEq] at version'
      subst version'
      cases planned with
      | delete type parsed repository =>
        obtain ⟨-, same⟩ := List.mem_filter.mp member
        rw [(hs.entry?_eq_some_iff.mp entry).2] at same
        exact ⟨mutable, ⟨_, repository, same⟩, .deleted type parsed rfl⟩
    · rw [version] at lost
      exact nomatch lost

/-- In a catalog that can come about, a version that a call takes away, however the call ends, was not frozen, was
one of the call's repository, and was named by a delete event or looked for everywhere and not found. -/
theorem gone_only_if_removable {s : Store} (h : s.Reachable) (c : Context) (call : Call) {e : Entry} (he : e ∈ s.entries)
    {v : Version} (hv : v ∈ e.versions)
    (gone : ∀ f ∈ (run c s call).store.entries, f.path = e.path → ∀ w ∈ f.versions, w.name ≠ v.name) :
    v.frozen = false ∧ (∃ p, repositoryPath call.repository = .ok p ∧ e.path.sameRepository p = true) ∧
      Removable c e.path.name v.name call := by
  have hs := h.wellFormed
  refine removable_of_gone hs (hs.entry?_eq_some_iff.mpr ⟨he, rfl⟩)
    ((Entry.version?_eq_some_iff (hs.entries e he).distinct).mpr ⟨hv, rfl⟩) fun f hf => ?_
  have after := hs.run c call
  obtain ⟨hf, path⟩ := after.entry?_eq_some_iff.mp hf
  exact Entry.version?_eq_none_iff.mpr (gone f hf path)

/-- The version of the small catalog is gone after a refresh that finds the repository empty. -/
theorem sample_version_gone :
    ∃ e ∈ Sample.refreshed.1.entries, ∃ v ∈ e.versions,
      (∀ f ∈ (run (Sample.context []) Sample.refreshed.1 Sample.refresh).store.entries, f.path = e.path →
        ∀ w ∈ f.versions, w.name ≠ v.name) ∧
      v.frozen = false ∧ Removable (Sample.context []) e.path.name v.name Sample.refresh := by
  have some_version : Sample.refreshed.1.entries.any (fun e => !e.versions.isEmpty) = true := by decide +kernel
  have none_left :
      (run (Sample.context []) Sample.refreshed.1 Sample.refresh).store.entries.all (·.versions.isEmpty) = true := by
    decide +kernel
  obtain ⟨e, he, versions⟩ := List.any_eq_true.mp some_version
  obtain ⟨v, hv⟩ := List.exists_mem_of_ne_nil e.versions (by simpa using versions)
  have gone : ∀ f ∈ (run (Sample.context []) Sample.refreshed.1 Sample.refresh).store.entries, f.path = e.path →
      ∀ w ∈ f.versions, w.name ≠ v.name := fun f hf _ w hw => by
    rw [List.isEmpty_iff.mp (List.all_eq_true.mp none_left f hf)] at hw
    exact absurd hw List.not_mem_nil
  obtain ⟨mutable, -, removable⟩ :=
    gone_only_if_removable Sample.refreshed.2 (Sample.context []) Sample.refresh he hv gone
  exact ⟨e, he, v, hv, gone, mutable, removable⟩

end Reconcile

end WorkflowCatalog
