import WorkflowCatalog.Proofs.Accounts
import WorkflowCatalog.Proofs.Repeats

/-!
# Calls that are made again

A call that is not disturbed is idempotent: to make it a second time, while the remote answers as before, leaves the
catalog as it is, to the last mark on a file. It does not matter whether the first call has succeeded, nor how strict
it is. And unless the call is one that rebuilds a version in any case, the second tells of no change.
-/
namespace WorkflowCatalog

open Sync

/-! ## Catalogs in which entries were saved -/

namespace Store

variable {s : Store} {es : List Entry}

theorem saves_foldl {P : Entry → Prop} (h : ∀ f ∈ es, P f) (s : Store) : s.Saves P (es.foldl Store.save s) := by
  induction es generalizing s with
  | nil => exact .refl
  | cons e es ih =>
    rw [List.forall_mem_cons] at h
    exact (Saves.save .refl h.1).trans (ih h.2 (s.save e))

/-- At each address there is what was saved for it last. -/
theorem WellFormed.entry?_saves (h : s.WellFormed) (hes : ∀ f ∈ es, f.WellFormed) (p : EntryPath) :
    Store.entry? (es.foldl Store.save s) p = (es.reverse.find? fun f => f.path == p).or (s.entry? p) := by
  induction es generalizing s with
  | nil => rfl
  | cons e es ih =>
    rw [List.forall_mem_cons] at hes
    rw [List.foldl_cons, ih (h.save hes.1) hes.2, h.entry?_save hes.1, List.reverse_cons, List.find?_append,
      Option.or_assoc]
    by_cases path : e.path = p
    · rw [List.find?_cons_of_pos (by simpa using path), if_pos path, Option.some_or]
    · rw [List.find?_cons_of_neg (by simpa using path), if_neg path, List.find?_nil, Option.none_or]

theorem WellFormed.entry?_saves_elsewhere (h : s.WellFormed) (hes : ∀ f ∈ es, f.WellFormed) {p : EntryPath}
    (other : ∀ f ∈ es, f.path ≠ p) : Store.entry? (es.foldl Store.save s) p = s.entry? p := by
  have none_saved : es.reverse.find? (fun f => f.path == p) = none := by simpa using other
  rw [h.entry?_saves hes, none_saved, Option.none_or]

theorem WellFormed.entry?_saves_at (h : s.WellFormed) (hes : ∀ f ∈ es, f.WellFormed) {p : EntryPath}
    (here : ∀ f ∈ es, f.path = p) : Store.entry? (es.foldl Store.save s) p = es.getLast?.or (s.entry? p) := by
  have last : es.reverse.find? (fun f => f.path == p) = es.getLast? := by
    rw [List.getLast?_eq_head?_reverse]
    cases reversed : es.reverse with
    | nil => rfl
    | cons f rest =>
      have member : f ∈ es := List.mem_reverse.mp (reversed ▸ List.mem_cons_self)
      exact List.find?_cons_of_pos (by simpa using here f member)
  rw [h.entry?_saves hes, last]

/-- Each address that has an entry keeps one. -/
theorem WellFormed.path_mem_saves (h : s.WellFormed) (hes : ∀ f ∈ es, f.WellFormed) {e : Entry} (he : e ∈ s.entries) :
    ∃ f ∈ Store.entries (es.foldl Store.save s), f.path = e.path := by
  have hu : (es.foldl Store.save s).WellFormed := h.saves (saves_foldl hes s)
  have found := h.entry?_saves hes e.path
  rw [h.entry?_eq_some_iff.mpr ⟨he, rfl⟩] at found
  cases last : es.reverse.find? fun f => f.path == e.path with
  | none =>
    rw [last, Option.none_or] at found
    exact ⟨e, hu.entry?_eq_some_iff.mp found⟩
  | some f =>
    rw [last, Option.some_or] at found
    exact ⟨f, hu.entry?_eq_some_iff.mp found⟩

/-- To save what is there changes nothing. -/
theorem WellFormed.saves_of_mem (h : s.WellFormed) (known : ∀ f ∈ es, f ∈ s.entries) :
    es.foldl Store.save s = s := by
  induction es with
  | nil => rfl
  | cons e es ih =>
    rw [List.forall_mem_cons] at known
    have same : s.save e = s := by
      rw [Store.save, Keyed.upsert_of_find? ((Keyed.find?_eq_some_iff h.ids).mpr ⟨known.1, rfl⟩)]
    rw [List.foldl_cons, same, ih known.2]

end Store

theorem Sync.core_of_saved? {c : Context} {sources : List VersionSource} {e f : Entry} {change : Change}
    (h : saved? c sources e change = some f) : f.SameCore e := by
  have core : (advance c sources ⟨e, false, .nothing⟩ change).entry.SameCore e := core_advance _ change
  rwa [entry_advance, h] at core

theorem Entry.Invariant.of_saved? {P : Entry → Prop} (I : Invariant P) {c : Context} {sources : List VersionSource}
    {e f : Entry} {change : Change} (he : P e) (h : saved? c sources e change = some f) : P f := by
  have kept : P (Sync.progress c sources ⟨e, false, .nothing⟩ [change]).entry := I.progress he [change]
  rwa [progress_cons, progress_nil, entry_advance, h] at kept

namespace Job

variable {c : Context} {j : Job} {js : List Job} {s : Store} {r : Except SyncError Unit} {es : List Entry}
  {t : Timestamp}

/-- What is saved by a job is well-formed and at the address of the job. -/
theorem Ran.wellFormed (h : j.Ran c (s.entry? j.path) r es) (hs : s.WellFormed) (plain : j.path.IsPlain) :
    ∀ f ∈ es, f.WellFormed ∧ f.path = j.path := by
  intro f hf
  obtain ⟨before, isNew, d, begins, hf⟩ := h.mem hf
  have first : (withSettings before j.sources).WellFormed :=
    Entry.invariant_wellFormed.start (fun e found => hs.entries.entry? found) plain begins.start
  have path : before.path = j.path := begins.path fun e found => (hs.entry?_eq_some_iff.mp found).2
  have step : ∀ e change f, change ∈ d.changes → (e.WellFormed ∧ e.path = j.path) →
      saved? c j.sources e change = some f → f.WellFormed ∧ f.path = j.path := fun e change f _ he saved =>
    ⟨Entry.invariant_wellFormed.of_saved? he.1 saved, (core_of_saved? saved).path.trans he.2⟩
  obtain ⟨last, members⟩ := mem_trail step ⟨first, (sameCore_withSettings before j.sources).path.trans path⟩
  rcases hf with hf | ⟨rfl, -⟩
  · exact (members f hf).1
  · exact last

theorem Runs.wellFormed (h : Runs c js s r es) (hs : s.WellFormed) (plain : ∀ j ∈ js, j.path.IsPlain) :
    ∀ f ∈ es, f.WellFormed ∧ ∃ j ∈ js, f.path = j.path := by
  induction h with
  | nil => exact fun f hf => absurd hf List.not_mem_nil
  | @cons j js s _ es _ first _ ih =>
    rw [List.forall_mem_cons] at plain
    have saved := first.wellFormed hs plain.1
    refine List.forall_mem_append.mpr ⟨fun f hf => ?_, fun f hf => ?_⟩
    · exact ⟨(saved f hf).1, j, List.mem_cons_self, (saved f hf).2⟩
    · have after := hs.saves (Store.saves_foldl (fun f hf => (saved f hf).1) s)
      obtain ⟨valid, k, hk, path⟩ := ih after plain.2 f hf
      exact ⟨valid, k, List.mem_cons_of_mem j hk, path⟩
  | @stop j _ _ _ _ first =>
    have saved := first.wellFormed hs (List.forall_mem_cons.mp plain).1
    exact fun f hf => ⟨(saved f hf).1, j, List.mem_cons_self, (saved f hf).2⟩

/-- A job that is done again, starting from what it has left at its address, saves only what is there, and fails if it
has failed. -/
theorem Ran.known_again {u : Store} {r' : Except SyncError Unit} {es' : List Entry} (quiet : c.IsQuiet)
    (hs : s.WellFormed) (hu : u.WellFormed) (plain : j.path.IsPlain) (complete : j.listing.complete = true)
    (first : j.Ran c (s.entry? j.path) r es) (left : u.entry? j.path = Store.entry? (es.foldl Store.save s) j.path)
    (second : j.Ran (c.withClock t) (u.entry? j.path) r' es') :
    (∀ f ∈ es', f ∈ u.entries) ∧ (r ≠ .ok () → r' ≠ .ok ()) := by
  have saved := first.wellFormed hs plain
  rw [hs.entry?_saves_at (fun f hf => (saved f hf).1) fun f hf => (saved f hf).2] at left
  rw [left] at second
  obtain ⟨members, stops⟩ := first.again quiet complete (fun e found => (hs.entries.entry? found).distinct) second
  exact ⟨fun f hf => (hu.entry?_eq_some_iff.mp (left.trans (members f hf))).1, stops⟩

/-- Jobs that are done again, starting from what they have left, save only what is there. -/
theorem Runs.again (h : Runs c js s r es) (quiet : c.IsQuiet) (hs : s.WellFormed) (plain : ∀ j ∈ js, j.path.IsPlain)
    (distinct : (js.map Job.path).Nodup) (complete : ∀ j ∈ js, j.listing.complete = true) {u : Store}
    (hu : u.WellFormed) (left : ∀ j ∈ js, u.entry? j.path = Store.entry? (es.foldl Store.save s) j.path)
    {r' : Except SyncError Unit} {es' : List Entry} (k : Runs (c.withClock t) js u r' es') :
    ∀ f ∈ es', f ∈ u.entries := by
  induction h generalizing r' es' with
  | nil =>
    cases k
    exact fun f hf => absurd hf List.not_mem_nil
  | @cons j js s _ es fs first rest ih =>
    rw [List.forall_mem_cons] at plain complete left
    rw [List.map_cons, List.nodup_cons] at distinct
    rw [List.foldl_append] at left
    have after := hs.saves (Store.saves_foldl (fun f hf => (first.wellFormed hs plain.1 f hf).1) s)
    have others := rest.wellFormed after plain.2
    have here : u.entry? j.path = Store.entry? (es.foldl Store.save s) j.path := by
      rw [left.1, after.entry?_saves_elsewhere fun f hf => (others f hf).1]
      intro f hf same
      obtain ⟨-, k, hk, path⟩ := others f hf
      exact distinct.1 (List.mem_map.mpr ⟨k, hk, path.symm.trans same⟩)
    cases k with
    | cons first' rest' =>
      have members := (Ran.known_again quiet hs hu plain.1 complete.1 first here first').1
      rw [hu.saves_of_mem members] at rest'
      exact List.forall_mem_append.mpr ⟨members, ih after plain.2 distinct.2 complete.2 left.2 rest'⟩
    | stop first' => exact (Ran.known_again quiet hs hu plain.1 complete.1 first here first').1
  | stop first =>
    rw [List.forall_mem_cons] at plain complete left
    cases k with
    | cons first' => exact absurd rfl ((Ran.known_again quiet hs hu plain.1 complete.1 first left.1 first').2 nofun)
    | stop first' => exact (Ran.known_again quiet hs hu plain.1 complete.1 first left.1 first').1

end Job

/-! ## Deletions -/

/-- Once a version has been deleted from all entries of a repository, it cannot be deleted from any. -/
theorem Store.WellFormed.cuts_again {s : Store} (hs : s.WellFormed) (name : String) (p : EntryPath) :
    ∀ e ∈ (((s.forRepository p).filterMap (Entry.without? name)).foldl Store.save s).forRepository p,
      e.without? name = none := by
  have cut : ∀ f ∈ (s.forRepository p).filterMap (Entry.without? name), f.WellFormed ∧ f.without? name = none := by
    intro f hf
    obtain ⟨e, he, lost⟩ := List.mem_filterMap.mp hf
    obtain rfl := Entry.eq_of_without? lost
    have valid := hs.entries e (List.mem_filter.mp he).1
    have gone : (e.remove name).version? name = none := by rw [Entry.version?_remove valid.distinct, if_pos rfl]
    exact ⟨Entry.invariant_wellFormed.removed name valid, by rw [Entry.without?, gone]⟩
  intro e he
  obtain ⟨member, near⟩ := List.mem_filter.mp he
  cases lost : e.without? name with
  | none => rfl
  | some f =>
    exfalso
    obtain old | new := Store.mem_entries_saves member
    · -- The entry would have been saved without the version, and so it was replaced.
      have hf : f ∈ (s.forRepository p).filterMap (Entry.without? name) :=
        List.mem_filterMap.mpr ⟨e, List.mem_filter.mpr ⟨old, near⟩, lost⟩
      have hu := hs.saves (Store.saves_foldl (fun f hf => (cut f hf).1) s)
      have found := hu.entry?_eq_some_iff.mpr ⟨member, rfl⟩
      rw [hs.entry?_saves fun f hf => (cut f hf).1] at found
      cases last : ((s.forRepository p).filterMap (Entry.without? name)).reverse.find? fun g => g.path == e.path with
      | none =>
        have other := List.find?_eq_none.mp last f (List.mem_reverse.mpr hf)
        rw [Entry.eq_of_without? lost] at other
        exact other (beq_self_eq_true _)
      | some g =>
        rw [last, Option.some_or, Option.some.injEq] at found
        have settled := (cut g (List.mem_reverse.mp (List.mem_of_find?_eq_some last))).2
        rw [found, lost] at settled
        cases settled
    · cases lost.symm.trans (cut e new).2

/-! ## What is to be done again -/

namespace Reconcile

variable {c : Context} {s u : Store} {call : Call} {a : Agenda} {t : Timestamp}

theorem plan_withClock (c : Context) (t : Timestamp) (s : Store) (call : Call) :
    plan (c.withClock t) s call = plan c s call := by
  cases call <;> rfl

theorem names_again {survey : Survey} {p : EntryPath}
    (kept : ∀ e ∈ s.entries, ∃ f ∈ u.entries, f.path = e.path)
    (known : ∀ f ∈ u.entries, (∃ e ∈ s.entries, e.path = f.path) ∨
      ∃ j ∈ refreshJobs p survey (survey.names (s.forRepository p)), j.path = f.path) :
    survey.names (u.forRepository p) = survey.names (s.forRepository p) := by
  refine (Ascending.isAscending_lastOf Option.toList _).eq_of_mem_iff (Ascending.isAscending_lastOf _ _) fun name => ?_
  change name ∈ survey.names _ ↔ name ∈ survey.names _
  constructor
  · intro hn
    obtain declared | ⟨f, hf, rfl⟩ := Survey.mem_names.mp hn
    · exact Survey.mem_names.mpr (.inl declared)
    · obtain ⟨hf, near⟩ := List.mem_filter.mp hf
      obtain ⟨e, he, path⟩ | ⟨j, hj, path⟩ := known f hf
      · exact Survey.mem_names.mpr (.inr ⟨e, List.mem_filter.mpr ⟨he, by rwa [path]⟩, by rw [path]⟩)
      · obtain ⟨name, hn, rfl⟩ := List.mem_map.mp hj
        exact path ▸ hn
  · intro hn
    obtain declared | ⟨e, he, rfl⟩ := Survey.mem_names.mp hn
    · exact Survey.mem_names.mpr (.inl declared)
    · obtain ⟨he, near⟩ := List.mem_filter.mp he
      obtain ⟨f, hf, path⟩ := kept e he
      exact Survey.mem_names.mpr (.inr ⟨f, List.mem_filter.mpr ⟨hf, by rwa [path]⟩, by rw [path]⟩)

/-- If a call finds the entries that it has worked on, and those of before, then it has the same jobs to do. -/
theorem Planned.jobs_again {js : List Job} (h : Planned c s call (.jobs js)) (k : Planned (c.withClock t) u call a)
    (kept : ∀ e ∈ s.entries, ∃ f ∈ u.entries, f.path = e.path)
    (known : ∀ f ∈ u.entries, (∃ e ∈ s.entries, e.path = f.path) ∨ ∃ j ∈ js, j.path = f.path) : a = .jobs js := by
  cases h with
  | push type parsed repository manifest listed =>
    cases k with
    | push _ parsed' repository' manifest' listed' =>
      obtain rfl := Except.ok.inj (parsed.symm.trans parsed')
      obtain rfl := Except.ok.inj (repository.symm.trans repository')
      obtain ⟨rfl, rfl⟩ := Prod.mk.inj (Except.ok.inj (manifest.symm.trans manifest'))
      obtain rfl := Except.ok.inj (listed.symm.trans listed')
      rfl
    | delete type' => exact nomatch type.symm.trans type'
  | refresh path listed surveyed =>
    cases k with
    | refresh path' listed' surveyed' =>
      obtain rfl := Except.ok.inj (path.symm.trans path')
      obtain rfl := Except.ok.inj (listed.symm.trans listed')
      obtain rfl := Except.ok.inj (surveyed.symm.trans surveyed')
      rw [names_again kept known]
  | refreshVersion path listed manifest declared =>
    cases k with
    | refreshVersion path' listed' manifest' declared' =>
      obtain rfl := Except.ok.inj (path.symm.trans path')
      obtain rfl := Except.ok.inj (listed.symm.trans listed')
      obtain ⟨rfl, rfl⟩ := Prod.mk.inj (Except.ok.inj (manifest.symm.trans manifest'))
      obtain rfl := Option.some.inj (declared.symm.trans declared')
      rfl

theorem Planned.deletion_again {name : String} {entries : List Entry} (h : Planned c s call (.deletion name entries))
    (k : Planned (c.withClock t) u call a) :
    ∃ p, entries = s.forRepository p ∧ a = .deletion name (u.forRepository p) := by
  cases h with
  | delete type parsed repository =>
    cases k with
    | push type' => exact nomatch type.symm.trans type'
    | delete _ parsed' repository' =>
      obtain rfl := Except.ok.inj (parsed.symm.trans parsed')
      obtain rfl := Except.ok.inj (repository.symm.trans repository')
      exact ⟨_, rfl, rfl⟩

/-- A call that is made again saves only what is there. -/
theorem Saved.again {es es' : List Entry} (h : Saved c s call es) (quiet : c.IsQuiet) (hs : s.WellFormed)
    (k : Saved (c.withClock t) (es.foldl Store.save s) call es') :
    ∀ f ∈ es', f ∈ Store.entries (es.foldl Store.save s) := by
  cases k with
  | nothing => exact fun f hf => absurd hf List.not_mem_nil
  | acted plan' ran' =>
    have planned' := planned plan'
    cases h with
    | nothing refused =>
      rw [List.foldl_nil, plan_withClock, refused] at plan'
      exact nomatch plan'
    | acted plan ran =>
      have planned := planned plan
      cases ran with
      | jobs runs =>
        have plain := planned.plain_jobs
        have saved := runs.wellFormed hs plain
        have hu := hs.saves (Store.saves_foldl (fun f hf => (saved f hf).1) s)
        have kept : ∀ e ∈ s.entries, ∃ f ∈ Store.entries (es.foldl Store.save s), f.path = e.path := fun e he =>
          hs.path_mem_saves (fun f hf => (saved f hf).1) he
        have known : ∀ f ∈ Store.entries (es.foldl Store.save s),
            (∃ e ∈ s.entries, e.path = f.path) ∨ ∃ j ∈ _, Job.path j = f.path := fun f hf =>
          (Store.mem_entries_saves hf).imp (fun old => ⟨f, old, rfl⟩) fun new =>
            (saved f new).2.imp fun j hj => ⟨hj.1, hj.2.symm⟩
        obtain rfl := planned.jobs_again planned' kept known
        cases ran' with
        | jobs runs' =>
          exact runs.again quiet hs plain planned.distinct_jobs planned.complete_jobs hu (fun _ _ => rfl) runs'
      | deletion deletes =>
        obtain ⟨p, rfl, rfl⟩ := planned.deletion_again planned'
        obtain rfl := deletes.eq_cuts quiet
        cases ran' with
        | deletion deletes' =>
          intro f hf
          rw [deletes'.eq_cuts (quiet.withClock t)] at hf
          obtain ⟨e, he, lost⟩ := List.mem_filterMap.mp hf
          exact nomatch lost.symm.trans (hs.cuts_again _ p e he)

end Reconcile

/-! ## What is told of a call that is made again -/

namespace Job

variable {c : Context} {j : Job} {old last : Option Entry} {r : Except SyncError Unit} {out : List SyncResult}

/-- A job that leaves the entry as it is tells of no version as updated, unless it had to rebuild it in any case. -/
theorem Effect.forced_of_updated (h : j.Effect c old r last out) (same : last.or old = old)
    (distinct : ∀ e, old = some e → e.HasDistinctNames)
    (cover : j.sources.map VersionSource.remote = j.listing.versions) {x : SyncResult} (hx : x ∈ out) {n : String}
    (hn : n ∈ x.updated) : n ∈ j.forced := by
  have hn : n ∈ Sync.told false x := hn
  obtain ⟨before, new, d, done, begins, made, rfl, hn, -⟩ := h.of_told hx hn
  have first := distinct_firstWork (j := j) (d := d) (begins.distinct distinct)
  have names := VersionDiff.nodup_of_prefix begins.compared first made
  rw [mem_told_progress first names] at hn
  obtain ⟨change, v, rebuilt⟩ := hn.resolve_left List.not_mem_nil
  -- The version was rebuilt, and yet it is the one of before.
  have version : (progress c j.sources (j.firstWork before d) done).entry.version? n = some v := by
    rw [← Change.name_build false n, version?_progress_of_mem first names change, after_build, rebuilt]
    rfl
  have earlier : (j.firstWork before d).entry.version? n = some v := by
    rw [version?_firstWork, begins.version?, ← same, Option.some_or, Option.bind_some, version]
  obtain ⟨s, source, rfl, answer⟩ := source_of_rebuilt? rebuilt
  have reason := (VersionDiff.mem_changes begins.compared).mp (made.subset change)
  generalize asked : Change.build false s.remote.name = change at reason
  cases reason with
  | added => exact nomatch (Change.build.inj asked).1
  | removed => exact nomatch asked
  | @updated listed u found' found mutable moved =>
    have named : s.remote.name = listed.name := (Change.build.inj asked).2
    obtain rfl : v = u := Option.some.inj (earlier.symm.trans (named ▸ found))
    have remote : s.remote = listed := by
      rw [← cover, List.find?_map, ← named] at found'
      obtain ⟨t, ht, rfl⟩ := Option.map_eq_some_iff.mp found'
      exact congrArg VersionSource.remote (Option.some.inj (source.symm.trans ht))
    have commit : v.commitId = some listed.commitId := remote ▸ Build.commitId_of_answer answer
    have name : v.name = s.remote.name := name_of_rebuilt? rebuilt
    rw [VersionDiff.moves, commit, name] at moved
    simpa using moved

end Job

/-- Whether a call rebuilds a version in any case. -/
def Call.isForced : Call → Bool
  | refreshVersion .. => true
  | _ => false

namespace Reconcile

variable {c : Context} {s : Store} {call : Call} {js : List Job}

theorem Planned.cover_jobs (h : Planned c s call (.jobs js)) :
    ∀ j ∈ js, j.sources.map VersionSource.remote = j.listing.versions := by
  intro j hj
  cases h with
  | push =>
    obtain ⟨d, -, rfl⟩ := List.mem_map.mp hj
    rfl
  | refresh =>
    obtain ⟨name, -, rfl⟩ := List.mem_map.mp hj
    rfl
  | refreshVersion =>
    obtain rfl := List.mem_singleton.mp hj
    rfl

theorem Planned.forced_jobs (h : Planned c s call (.jobs js)) (free : call.isForced = false) :
    ∀ j ∈ js, j.forced = [] := by
  intro j hj
  cases h with
  | push =>
    obtain ⟨d, -, rfl⟩ := List.mem_map.mp hj
    rfl
  | refresh =>
    obtain ⟨name, -, rfl⟩ := List.mem_map.mp hj
    rfl
  | refreshVersion => exact nomatch free

/-- A call that leaves the catalog as it is tells of no version that is new or gone. -/
theorem idle_results (hs : s.WellFormed) (c : Context) (call : Call) (same : (run c s call).store = s) :
    ∀ x ∈ (run c s call).results, x.added = [] ∧ x.removed = [] := by
  intro x hx
  obtain ⟨ps, out, moves, distinct, concerned, r, results⟩ := moves_run hs c call
  rw [results] at hx
  rw [same] at moves
  rcases mem_closed hx with hx | ⟨-, idle⟩
  · obtain ⟨p, hp, named⟩ := moves.named_of_mem hx
    have plain := fun p hp => (concerned p hp).1
    exact ((moves.tells plain distinct (plain p hp)).1 x hx named).idle
  · simp only [SyncResult.hasChanges, Bool.not_eq_false', Bool.and_eq_true, List.isEmpty_iff] at idle
    exact ⟨idle.1.1, idle.2⟩

/-- A call that leaves the catalog as it is tells of no version as updated, unless it had to rebuild one. -/
theorem no_updates (hs : s.WellFormed) (free : call.isForced = false) (same : (run c s call).store = s) :
    ∀ x ∈ (run c s call).results, x.updated = [] := by
  intro x hx
  refine List.eq_nil_iff_forall_not_mem.mpr fun n hn => ?_
  have hn : n ∈ told false x := hn
  obtain ⟨js, planned, j, hj, _, _, _, part, hx⟩ := part_of_told hs hx hn
  rw [same] at part
  have forced := part.effect.forced_of_updated part.entry?.symm
    (fun e found => (hs.entries.entry? found).distinct) (planned.cover_jobs j hj) hx hn
  rw [planned.forced_jobs free j hj] at forced
  exact absurd forced List.not_mem_nil

/-- A call that is not disturbed and is made again, at whatever time, leaves the catalog exactly as the first has left
it, whether or not that has succeeded. No version is told as new or gone, and none as updated but for one that the call
is to rebuild in any case. -/
theorem idempotent_run {s : Store} (h : s.Reachable) {c : Context} (quiet : c.IsQuiet) (call : Call) (t : Timestamp) :
    (run (c.withClock t) (run c s call).store call).store = (run c s call).store ∧
      ∀ x ∈ (run (c.withClock t) (run c s call).store call).results,
        x.added = [] ∧ x.removed = [] ∧ (call.isForced = false → x.updated = []) := by
  have hs := h.wellFormed
  have hu := hs.run c call
  have same : (run (c.withClock t) (run c s call).store call).store = (run c s call).store := by
    rw [store_run (c.withClock t)]
    refine hu.saves_of_mem fun f hf => ?_
    have again := saved_run (c.withClock t) (run c s call).store call
    rw [store_run c s call] at again hf ⊢
    exact (saved_run c s call).again quiet hs again f hf
  refine ⟨same, fun x hx => ?_⟩
  obtain ⟨added, removed⟩ := idle_results hu _ call same x hx
  exact ⟨added, removed, fun free => no_updates hu free same x hx⟩

/-- A version that is rebuilt in any case is told as updated each time, and stays as it is. -/
theorem sample_rebuilt_again :
    let c := Sample.context [Sample.main]
    let call := .refreshVersion "org/repo" none "main" "alice"
    let second := run (c.withClock ⟨"2025-02-01T00:00:00Z", by decide +kernel⟩) (run c Sample.refreshed.1 call).store call
    second.store = (run c Sample.refreshed.1 call).store ∧
      ∃ x ∈ second.results, x.added = [] ∧ x.updated = ["main"] ∧ x.removed = [] := by
  intro c call second
  have quiet : c.IsQuiet := ⟨fun _ => rfl, fun _ => rfl⟩
  obtain ⟨same, idle⟩ := idempotent_run Sample.refreshed.2 quiet call ⟨"2025-02-01T00:00:00Z", by decide +kernel⟩
  have told : second.results.any (fun x => x.updated == ["main"]) = true := by decide +kernel
  obtain ⟨x, hx, updated⟩ := List.any_eq_true.mp told
  obtain ⟨added, removed, -⟩ := idle x hx
  exact ⟨same, x, hx, added, beq_iff_eq.mp updated, removed⟩

end Reconcile

end WorkflowCatalog
