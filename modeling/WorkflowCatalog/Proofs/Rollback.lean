import WorkflowCatalog.Proofs.Agreement
import WorkflowCatalog.Proofs.Reports

/-!
# What a failed push leaves

A version that cannot be built is not saved, and where it is the first of a new entry, neither is the entry. An entry
on record is not left alone, though: the settings that the pushed declaration states are taken over before the version
is built, and they are saved at the end if nothing else has saved them, also if the version has failed.
-/
namespace WorkflowCatalog

open Sync

namespace Sync

variable {c : Context} {sources : List VersionSource}

theorem trail_eq_nil {e : Entry} {done : List Change} (h : ∀ change ∈ done, saved? c sources e change = none) :
    trail c sources e done = [] := by
  induction done with
  | nil => rfl
  | cons change done ih =>
    rw [List.forall_mem_cons] at h
    rw [trail_cons, h.1]
    exact ih h.2

theorem reached_of_trail {e : Entry} {done : List Change} (nothing : trail c sources e done = []) :
    reached c sources e done = e := by
  obtain ⟨-, same⟩ | ⟨earlier, last⟩ := trail_cases c sources e done
  · exact same
  · rw [nothing] at last
    exact absurd last.symm (List.append_ne_nil_of_right_ne_nil _ (List.cons_ne_nil _ _))

end Sync

namespace Job

open Reconcile

variable {c : Context} {j : Job} {js : List Job} {s : Store} {u : VersionSource} {old : Option Entry}
  {before : Entry} {isNew : Bool} {d : VersionDiff} {r : Except SyncError Unit} {es : List Entry} {x : SyncResult}

/-- Each job leaves its entry as it was, or as it has saved it last. -/
theorem Runs.left (h : Runs c js s r es) (hs : s.WellFormed) (plain : ∀ j ∈ js, j.path.IsPlain)
    (distinct : (js.map Job.path).Nodup) : ∀ j ∈ js,
      Store.entry? (es.foldl Store.save s) j.path = s.entry? j.path ∨
        ∃ r' es', j.Ran c (s.entry? j.path) r' es' ∧
          Store.entry? (es.foldl Store.save s) j.path = es'.getLast?.or (s.entry? j.path) := by
  induction h with
  | nil => exact fun j hj => absurd hj List.not_mem_nil
  | @cons j js s r es fs first rest ih =>
    rw [List.forall_mem_cons] at plain
    rw [List.map_cons, List.nodup_cons] at distinct
    have apart : ∀ k ∈ js, j.path ≠ k.path := fun k hk same => distinct.1 (same ▸ List.mem_map_of_mem hk)
    have after := first.wellFormed_saves hs plain.1
    have others := rest.wellFormed after plain.2
    rw [List.foldl_append]
    refine List.forall_mem_cons.mpr ⟨.inr ⟨_, es, first, ?_⟩, fun k hk => ?_⟩
    · rw [after.entry?_saves_elsewhere (fun f hf => (others f hf).1) fun f hf => ?_, first.entry?_saves hs plain.1]
      obtain ⟨k, hk, path⟩ := (others f hf).2
      exact path ▸ (apart k hk).symm
    · rw [← first.entry?_saves_elsewhere hs plain.1 (apart k hk)]
      exact ih after plain.2 distinct.2 k hk
  | @stop j js s err es first =>
    rw [List.forall_mem_cons] at plain
    rw [List.map_cons, List.nodup_cons] at distinct
    refine List.forall_mem_cons.mpr ⟨.inr ⟨_, es, first, first.entry?_saves hs plain.1⟩, fun k hk => .inl ?_⟩
    exact first.entry?_saves_elsewhere hs plain.1 fun same => distinct.1 (same ▸ List.mem_map_of_mem hk)

/-- A job for one pushed version. -/
structure IsPush (j : Job) (u : VersionSource) : Prop where
  sources : j.sources = [u]
  listing : j.listing = .ofVersions [u.remote]
  mode : j.mode = .push
  forced : j.forced = []

section Push

variable (push : j.IsPush u)
include push

/-- A push builds a version that is not there, or that is at another commit, and does nothing else. -/
theorem Begins.change_of_push (begins : j.Begins old before isNew d) {change : Change} (hc : change ∈ d.changes) :
    (change = .build true u.remote.name ∧ before.version? u.remote.name = none) ∨
      (change = .build false u.remote.name ∧
        ∃ v, before.version? u.remote.name = some v ∧ v.commitId ≠ some u.remote.commitId) := by
  have settings := version?_withSettings before j.sources u.remote.name
  cases (VersionDiff.mem_changes begins.compared).mp hc with
  | added listed absent =>
    rw [push.listing] at listed
    obtain ⟨rfl, -⟩ := find?_singleton_eq_some listed
    exact .inl ⟨rfl, settings.symm.trans absent⟩
  | @updated r v listed found mutable moved =>
    rw [push.listing] at listed
    obtain ⟨rfl, -⟩ := find?_singleton_eq_some listed
    refine .inr ⟨rfl, v, settings.symm.trans found, ?_⟩
    rw [push.forced] at moved
    simpa [VersionDiff.moves] using moved
  | removed full => cases push.mode.symm.trans full

/-- A push that tells of no version has saved none. -/
theorem trail_of_untold (begins : j.Begins old before isNew d) (distinct : before.HasDistinctNames)
    {done : List Change} (made : done <+: d.changes)
    (accounts : x.Accounts before.versions (reached c j.sources (withSettings before j.sources) done).versions)
    (added : x.added = []) (updated : x.updated = []) :
    trail c j.sources (withSettings before j.sources) done = [] := by
  have first : (withSettings before j.sources).HasDistinctNames := distinct_firstWork (j := j) (d := d) distinct
  refine trail_eq_nil fun change hc => ?_
  cases saved : saved? c j.sources (withSettings before j.sources) change with
  | none => rfl
  | some f =>
    -- A version that was saved is there now, and it is new or at another commit, so it would be told.
    have now : (reached c j.sources (withSettings before j.sources) done).version? change.name =
        after c j.sources (withSettings before j.sources) change :=
      version?_reached_of_mem first (VersionDiff.nodup_of_prefix begins.compared first made) hc
    obtain ⟨rfl, absent⟩ | ⟨rfl, old, found, moved⟩ := begins.change_of_push push (made.subset hc)
    · obtain ⟨v, hv, -⟩ := Option.map_eq_some_iff.mp saved
      rw [after_build, hv, Option.some_or] at now
      have told := (accounts.added u.remote.name).mpr
        ⟨⟨v, (Entry.version?_eq_some_iff (distinct_reached first done)).mp now⟩, Entry.version?_eq_none_iff.mp absent⟩
      rw [added] at told
      exact absurd told List.not_mem_nil
    · obtain ⟨v, hv, -⟩ := Option.map_eq_some_iff.mp saved
      rw [after_build, hv, Option.some_or] at now
      obtain ⟨source, listed, -, answer⟩ := source_of_rebuilt? (bind_toOption_eq_some_iff.mp hv)
      rw [push.sources] at listed
      obtain ⟨rfl, -⟩ := find?_singleton_eq_some listed
      obtain ⟨old_mem, named⟩ := (Entry.version?_eq_some_iff distinct).mp found
      obtain ⟨mem, same⟩ := (Entry.version?_eq_some_iff (distinct_reached first done)).mp now
      have differs : v ≠ old := fun e => moved (e ▸ Build.commitId_of_answer answer)
      have told := accounts.updated old old_mem v mem (same.trans named.symm) differs
      rw [updated] at told
      exact absurd told List.not_mem_nil

/-- A push that comes to its end and tells of no version leaves the entry with the settings of its declaration, and no
entry where there was none. -/
theorem steps_of_untold (begins : j.Begins old before isNew d) (distinct : before.HasDistinctNames)
    (accounts : x.Accounts (versionsOf old) (versionsOf ((j.steps c before isNew d).getLast?.or old)))
    (added : x.added = []) (updated : x.updated = []) :
    (j.steps c before isNew d).getLast?.or old = old.map fun e => e.withSettings u.declaration := by
  have settings (e : Entry) : withSettings e j.sources = e.withSettings u.declaration := by rw [push.sources]; rfl
  have nothing : trail c j.sources (withSettings before j.sources) d.changes = [] := by
    have leaves : Leaves (j.steps c before isNew d) (withSettings before j.sources)
        (reached c j.sources (withSettings before j.sources) d.changes) := leaves_steps
    obtain ⟨idle, -⟩ | last := leaves
    · exact (List.append_eq_nil_iff.mp idle).1
    · rw [last, Option.some_or, begins.versionsOf] at accounts
      exact trail_of_untold push begins distinct (List.prefix_refl _) accounts added updated
  rw [steps, closing_progress, firstWork, nothing, reached_of_trail nothing, List.nil_append]
  obtain ⟨rfl, rfl⟩ | ⟨rfl, rfl, s, _, -, rfl⟩ := startingPoint_eq_some begins.start
  · by_cases same : withSettings before j.sources = before
    · simp [same, ← settings]
    · simp [same, ← settings]
  · have empty : (withSettings (Entry.ofDeclaration j.path s.declaration) j.sources).versions = [] :=
      versions_firstWork j _ d
    simp [empty]

theorem left_of_untold (complete : j.listing.complete = true) (distinct : ∀ e, old = some e → e.HasDistinctNames)
    (accounts : x.Accounts (versionsOf old) (versionsOf (j.left c old))) (added : x.added = [])
    (updated : x.updated = []) : j.left c old = old.map fun e => e.withSettings u.declaration := by
  cases start : startingPoint j.path old j.sources with
  | none =>
    have none := (startingPoint_eq_none_iff.mp start).2
    rw [push.sources] at none
    exact nomatch none
  | some begun =>
    obtain ⟨before, isNew⟩ := begun
    obtain ⟨d, compared⟩ := diff_of_complete complete (withSettings before j.sources).versions j.mode j.forced
    have begins : j.Begins old before isNew d := ⟨start, compared⟩
    rw [left, script_eq_steps begins] at accounts ⊢
    exact steps_of_untold push begins (begins.distinct distinct) accounts added updated

/-- However a push ends, if it tells of no version it leaves the entry as it was but for the settings of its
declaration. -/
theorem Ran.of_untold (h : j.Ran c old r es) (distinct : ∀ e, old = some e → e.HasDistinctNames)
    (accounts : x.Accounts (versionsOf old) (versionsOf (es.getLast?.or old))) (added : x.added = [])
    (updated : x.updated = []) :
    es.getLast?.or old = old ∨ es.getLast?.or old = old.map fun e => e.withSettings u.declaration := by
  have stopped {before : Entry} {isNew : Bool} {d : VersionDiff} {done : List Change}
      (begins : j.Begins old before isNew d) (made : done <+: d.changes)
      (accounts : x.Accounts (versionsOf old)
        (versionsOf ((trail c j.sources (withSettings before j.sources) done).getLast?.or old))) :
      (trail c j.sources (withSettings before j.sources) done).getLast?.or old = old := by
    obtain ⟨nothing, -⟩ | last := leaves_trail (c := c) (j := j) (withSettings before j.sources) done
    · rw [nothing]
      rfl
    · rw [last, Option.some_or, begins.versionsOf] at accounts
      have nothing := trail_of_untold push begins (begins.distinct distinct) made accounts added updated
      rw [nothing]
      rfl
  cases h with
  | unread => exact .inl rfl
  | undeclared => exact .inl rfl
  | refused => exact .inl rfl
  | stopped _ begins changes => exact .inl (stopped begins ⟨_, changes.symm⟩ accounts)
  | unfinished _ begins => exact .inl (stopped begins (List.prefix_refl _) accounts)
  | finished _ begins => exact .inr (steps_of_untold push begins (begins.distinct distinct) accounts added updated)

end Push

end Job

namespace Reconcile

variable {c : Context} {s : Store} {e : WebhookEvent}

/-- The jobs of a push are for the declarations of the manifest at the reference. -/
theorem Planned.push_job {js : List Job} (h : Planned c s (.event e) (.jobs js)) {j : Job} (hj : j ∈ js) :
    ∃ reference u, GitReference.parse e.gitReference = .ok reference ∧
      u.declaration ∈ c.world.remote.declared e.repository reference.name ∧ u.declaration.name = j.path.name ∧
      j.IsPush u := by
  cases h with
  | @push _ reference p text m v _ parsed _ manifest _ =>
    obtain ⟨d, hd, rfl⟩ := List.mem_map.mp hj
    refine ⟨reference, ⟨{ v with referenceType := reference.type }, d, text⟩, parsed, ?_, rfl, ⟨rfl, rfl, rfl, rfl⟩⟩
    rw [Remote.declared, manifest]
    exact (List.mem_filter.mp hd).1

/-- Where the result of a push for an entry tells of no version, as it does where the version has failed, there is
still no entry if there was none, and an entry on record has its versions. It may have the settings that the pushed
declaration states, though, and it has them if nothing stops the call before they are saved. So the entry is exactly as
it was if and only if the declaration states no other settings or the call was stopped. -/
theorem failed_push_leaves_settings (h : s.Reachable) (lenient : c.options.isolation = .perVersion) {q : EntryPath}
    (push : e.type = .push) (concerned : Call.Concerns (.event e) q) {x : SyncResult}
    (hx : x ∈ (run c s (.event e)).results) (named : x.entry = some q.toText) (added : x.added = [])
    (updated : x.updated = []) :
    ∃ reference d, GitReference.parse e.gitReference = .ok reference ∧
      d ∈ c.world.remote.declared e.repository reference.name ∧ d.name = q.name ∧
      ((run c s (.event e)).store.entry? q = s.entry? q ∨
        (run c s (.event e)).store.entry? q = (s.entry? q).map fun f => f.withSettings d) ∧
      (c.IsQuiet → (run c s (.event e)).store.entry? q = (s.entry? q).map fun f => f.withSettings d) := by
  have hs := h.wellFormed
  obtain ⟨p, repository, same⟩ := concerned
  obtain ⟨name, rfl⟩ := EntryPath.sameRepository_iff.mp same
  have hq := (plain_of_repositoryPath repository).withName name
  have told := hx
  cases ends_run c s (.event e) with
  | refused _ _ results =>
    rw [results] at hx
    exact absurd (entry_of_mem_closed hx named) List.not_mem_nil
  | acted plan deed results =>
    have planned := planned plan
    cases deed with
    | deletion =>
      cases planned with
      | delete type => exact nomatch type.symm.trans push
    | @jobs js _ _ r out effects =>
      rw [results] at hx
      have hx := entry_of_mem_closed hx named
      have plain : ∀ q ∈ js.map Job.path, q.IsPlain := List.forall_mem_map.mpr planned.plain_jobs
      have moves := effects.moves hs planned.plain_jobs
      obtain ⟨j, hj, path⟩ := List.mem_map.mp (moves.mem_of_named plain hq hx named)
      have accounts := (moves.tells plain planned.distinct_jobs hq).1 x hx named
      rw [← path] at accounts ⊢
      obtain ⟨reference, u, parsed, declared, entry, push⟩ := planned.push_job hj
      have distinct : ∀ f, s.entry? j.path = some f → f.HasDistinctNames :=
        fun f found => (hs.entries.entry? found).distinct
      refine ⟨reference, u.declaration, parsed, declared, entry, ?_, fun quiet => ?_⟩
      · have saved := saved_run c s (.event e)
        rw [store_run] at accounts ⊢
        generalize (run c s (.event e)).log.saves = es at saved accounts ⊢
        cases saved with
        | nothing refused => exact nomatch plan.symm.trans refused
        | acted same ran =>
          obtain rfl := Except.ok.inj (plan.symm.trans same)
          cases ran with
          | jobs runs =>
            obtain untouched | ⟨_, _, ran, left⟩ := runs.left hs planned.plain_jobs planned.distinct_jobs j hj
            · exact .inl untouched
            · rw [left] at accounts ⊢
              exact ran.of_untold push distinct accounts added updated
      · cases read : c.world.lookupFault .entry with
        | some err =>
          obtain ⟨-, _, none_told⟩ := unread_run read plan
          rw [none_told] at told
          exact absurd (entry_of_mem_closed told named) List.not_mem_nil
        | none =>
          have left := (reported_run hs quiet lenient read plan).left j hj
          rw [left] at accounts ⊢
          exact Job.left_of_untold push (planned.complete_jobs j hj) distinct accounts added updated

end Reconcile

namespace Sample

/-- The branch has moved on, its manifest now has the entry published, and nothing else of it can be fetched. -/
def broken : Context := { context [] with
  world := { (context []).world with
    remote := {
      list := fun _ => .ok [{ main with commitId := "c2" }]
      file := fun repository n path =>
        if path = Manifest.path then .ok (some (manifest ++ "\n  publish: true").toUTF8)
        else .error (.remoteFetch repository n path "timed out") } } }

def pushed : WebhookEvent := ⟨"org/repo", "refs/heads/main", "alice", "7", .push⟩

/-- It fails, but the entry is published by it. -/
theorem push_of_broken :
    let o := Reconcile.run broken refreshed.1 (.event pushed)
    (∃ x ∈ o.results, x.entry = some path.toText ∧ x.success = false ∧ x.added = [] ∧ x.updated = []) ∧
      (refreshed.val.entry? path).map Entry.published = some false ∧
        (o.store.entry? path).map Entry.published = some true := by
  decide +kernel

end Sample

namespace Reconcile

/-- The push fails and tells of no version, and yet the entry is not what it was. -/
theorem sample_failed_push_publishes :
    let o := run Sample.broken Sample.refreshed.1 (.event Sample.pushed)
    (∃ x ∈ o.results, x.entry = some Sample.path.toText ∧ x.success = false ∧ x.added = [] ∧ x.updated = []) ∧
      o.store.entry? Sample.path ≠ Sample.refreshed.val.entry? Sample.path := by
  obtain ⟨failed, before, after⟩ := Sample.push_of_broken
  refine ⟨failed, fun same => ?_⟩
  rw [same, before] at after
  exact nomatch after

/-- What that push leaves is the entry with the settings of the declaration, which has it published. -/
theorem sample_failed_push_settings :
    let o := run Sample.broken Sample.refreshed.1 (.event Sample.pushed)
    ∃ d, (o.store.entry? Sample.path = (Sample.refreshed.val.entry? Sample.path).map fun f => f.withSettings d) ∧
      (o.store.entry? Sample.path).map Entry.published = some true := by
  have quiet : Sample.broken.IsQuiet := ⟨fun _ => rfl, fun _ => rfl⟩
  have concerned : Call.Concerns (.event Sample.pushed) Sample.path := ⟨Sample.path, rfl, by decide⟩
  obtain ⟨⟨x, hx, named, -, added, updated⟩, -, published⟩ := Sample.push_of_broken
  obtain ⟨reference, d, -, -, -, -, left⟩ :=
    failed_push_leaves_settings Sample.refreshed.2 rfl rfl concerned hx named added updated
  exact ⟨d, left quiet, published⟩

end Reconcile

end WorkflowCatalog
