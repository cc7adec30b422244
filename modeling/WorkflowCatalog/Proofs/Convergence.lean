import WorkflowCatalog.Proofs.Entries
import WorkflowCatalog.Proofs.Surveys

/-!
# A refresh catches up with the repository

After a refresh that is done, an entry has a version for each name that is listed and accepted, at the commit
that was listed first. Of its earlier versions it has kept those that are frozen, and those whose manifest
could not be read.
-/
namespace WorkflowCatalog

namespace Sync

section Synced

variable {c : Context} {sources : List VersionSource} {w : Work} {listing : RemoteListing} {mode : DiffMode}
  {d : VersionDiff} (distinct : w.entry.HasDistinctNames) (compared : diff w.entry.versions listing mode [] = .ok d)
  (cover : sources.map VersionSource.remote = listing.versions)
  (success : (progress c sources w d.changes).result.success = true)
include distinct compared cover success

/-- A version that was to be built is there after all changes, at the commit that is listed. -/
theorem version?_of_build {r : RemoteVersion} (listed : listing.versions.find? (fun s => s.name == r.name) = some r)
    {isNew : Bool} (hc : .build isNew r.name ∈ d.changes) :
    ∃ v, (progress c sources w d.changes).entry.version? r.name = some v ∧ v.commitId = some r.commitId := by
  have names := VersionDiff.nodup_changes compared distinct
  obtain ⟨s, hs, rfl⟩ : ∃ s, sources.find? (fun s => s.remote.name == r.name) = some s ∧ s.remote = r := by
    rw [← cover, List.find?_map, Option.map_eq_some_iff] at listed
    exact listed
  cases answer : (Build.version c w.entry s).answer with
  | error e =>
    have failed := ((success_progress distinct names).mp success).2 isNew s.remote.name e hc
    rw [rebuilt?, hs, Option.map_some, answer] at failed
    exact absurd rfl failed
  | ok v =>
    refine ⟨v, ?_, ?_⟩
    · rw [← Change.name_build isNew s.remote.name, version?_progress_of_mem distinct names hc]
      rw [after_build, rebuilt?, hs, Option.map_some, answer]
      rfl
    · exact Build.commitId_of_answer answer

/-- A version that is listed is there after all changes, frozen or at the commit that is listed. -/
theorem version?_of_listed {r : RemoteVersion} (listed : listing.versions.find? (fun s => s.name == r.name) = some r) :
    ∃ v, (progress c sources w d.changes).entry.version? r.name = some v ∧
      (v.frozen = true ∨ v.commitId = some r.commitId) := by
  have rebuilt : ∀ isNew, .build isNew r.name ∈ d.changes → ∃ v,
      (progress c sources w d.changes).entry.version? r.name = some v ∧
        (v.frozen = true ∨ v.commitId = some r.commitId) := by
    intro isNew hc
    obtain ⟨v, hv, commit⟩ := version?_of_build distinct compared cover success listed hc
    exact ⟨v, hv, .inr commit⟩
  cases found : VersionDiff.find? r.name w.entry.versions with
  | none => exact rebuilt true ((VersionDiff.mem_changes compared).mpr (.added listed found))
  | some v =>
    cases frozen : v.frozen with
    | true =>
      obtain ⟨member, name⟩ := (Entry.version?_eq_some_iff distinct).mp found
      refine ⟨v, ?_, .inl frozen⟩
      rw [version?_progress_of_not_mem distinct fun change hc =>
        name ▸ VersionDiff.name_ne_of_frozen compared distinct member frozen hc]
      exact found
    | false =>
      cases moved : VersionDiff.moves [] r v with
      | true => exact rebuilt false ((VersionDiff.mem_changes compared).mpr (.updated listed found frozen moved))
      | false =>
        refine ⟨v, ?_, .inr (by simpa [VersionDiff.moves] using moved)⟩
        rw [version?_progress_of_not_mem distinct fun change hc =>
          VersionDiff.name_ne_of_unmoved compared listed found moved hc]
        exact found

omit cover success in
/-- A version that is not listed is there after a full comparison only if it is frozen or protected. -/
theorem version?_of_unlisted (full : mode = .fullSync) {n : String} (unlisted : ∀ r ∈ listing.versions, r.name ≠ n) :
    (progress c sources w d.changes).entry.version? n =
      (w.entry.version? n).filter fun v => v.frozen || listing.protectedNames.contains n := by
  have names := VersionDiff.nodup_changes compared distinct
  cases found : w.entry.version? n with
  | none =>
    rw [version?_progress_of_not_mem distinct, found]
    · rfl
    · intro change hc name
      cases (VersionDiff.mem_changes compared).mp hc with
      | added listed _ => exact unlisted _ (List.mem_of_find?_eq_some listed) name
      | updated listed _ _ _ => exact unlisted _ (List.mem_of_find?_eq_some listed) name
      | removed _ _ _ member _ => exact Entry.version?_eq_none_iff.mp found _ member name
  | some v =>
    obtain ⟨member, rfl⟩ := (Entry.version?_eq_some_iff distinct).mp found
    by_cases kept : (v.frozen || listing.protectedNames.contains v.name) = true
    · rw [Option.filter_some, if_pos kept, version?_progress_of_not_mem distinct, found]
      intro change hc name
      cases (VersionDiff.mem_changes compared).mp hc with
      | added listed _ => exact unlisted _ (List.mem_of_find?_eq_some listed) name
      | updated listed _ _ _ => exact unlisted _ (List.mem_of_find?_eq_some listed) name
      | removed _ _ unprotected member' mutable =>
        have found' := (Entry.version?_eq_some_iff distinct).mpr ⟨member', name⟩
        obtain rfl := Option.some.inj (found.symm.trans found')
        simp [mutable, unprotected] at kept
    · rw [Option.filter_some, if_neg kept]
      simp only [Bool.or_eq_true, List.contains_iff_mem, not_or, Bool.not_eq_true] at kept
      have removed := (VersionDiff.mem_changes compared).mpr (.removed full unlisted kept.2 member kept.1)
      exact version?_progress_of_mem distinct names removed

end Synced

end Sync

theorem Entry.isSome_version?_iff {e : Entry} {n : String} :
    (e.version? n).isSome = true ↔ ∃ v ∈ e.versions, v.name = n := by
  simp [Entry.version?, List.find?_isSome]

namespace Reconcile

/-- The versions of an entry, if there is one. -/
def versionsOf (e : Option Entry) : List Version := (e.map Entry.versions).getD []

theorem isSome_of_mem_versionsOf {e : Option Entry} {v : Version} (h : v ∈ versionsOf e) : e.isSome = true := by
  cases e with
  | none => exact absurd h List.not_mem_nil
  | some _ => rfl

/-- An entry of that name, given as it was and as it is, has caught up with the listed versions. -/
structure CaughtUp (r : Remote) (repository : String) (vs : List RemoteVersion) (name : Option String)
    (old new : Option Entry) : Prop where
  names : ∀ n, (∃ v ∈ versionsOf new, v.name = n) ↔
    (∃ u ∈ vs, u.name = n ∧ r.accepts repository name u = true) ∨
      ∃ v ∈ versionsOf old, v.name = n ∧
        (v.frozen = true ∨ ∃ u ∈ vs, u.name = n ∧ r.isUnreadable repository u = true)
  commits : ∀ v ∈ versionsOf new, v.frozen = false → ∀ u,
    (vs.filter (r.accepts repository name)).find? (fun u => u.name == v.name) = some u → v.commitId = some u.commitId
  kept : old.isSome = true → new.isSome = true
  created : old = none → (new.isSome = true ↔ ∃ u ∈ vs, r.accepts repository name u = true)

variable {c : Context} {repository : String} {vs : List RemoteVersion} {survey : Survey}

/-- Where nothing is listed for an entry and it is not on record, there is nothing to catch up with. -/
theorem caughtUp_none {r : Remote} {name : Option String} (none_accepted : vs.filter (r.accepts repository name) = []) :
    CaughtUp r repository vs name none none := by
  rw [List.filter_eq_nil_iff] at none_accepted
  refine ⟨fun n => ?_, fun v hv => absurd hv List.not_mem_nil, fun h => h, fun _ => ?_⟩
  · refine iff_of_false (fun ⟨v, hv, _⟩ => absurd hv List.not_mem_nil) ?_
    rintro (⟨u, hu, -, accepted⟩ | ⟨v, hv, -⟩)
    · exact none_accepted u hu accepted
    · exact absurd hv List.not_mem_nil
  · exact iff_of_false (fun h => nomatch h) fun ⟨u, hu, accepted⟩ => none_accepted u hu accepted

section Versions

variable {r : Remote} {name : Option String} {before e : Entry} {accepted : List RemoteVersion}
  (accepts : accepted = vs.filter (r.accepts repository name))
  (listed : ∀ u, accepted.find? (fun t => t.name == u.name) = some u →
    ∃ v, e.version? u.name = some v ∧ (v.frozen = true ∨ v.commitId = some u.commitId))
include accepts listed

theorem names_of_synced (surveyed : surveyOf r repository vs = .ok survey)
    (unlisted : ∀ n, (∀ u ∈ accepted, u.name ≠ n) →
      e.version? n = (before.version? n).filter fun v => v.frozen || survey.unreadable.contains n)
    (distinct : before.HasDistinctNames) (n : String) :
    (∃ v ∈ e.versions, v.name = n) ↔
      (∃ u ∈ vs, u.name = n ∧ r.accepts repository name u = true) ∨
        ∃ v ∈ before.versions, v.name = n ∧
          (v.frozen = true ∨ ∃ u ∈ vs, u.name = n ∧ r.isUnreadable repository u = true) := by
  have unreadable : survey.unreadable.contains n = true ↔ ∃ u ∈ vs, u.name = n ∧ r.isUnreadable repository u = true := by
    rw [unreadable_of_surveyOf surveyed, List.contains_iff_mem, List.mem_map]
    constructor
    · rintro ⟨u, hu, named⟩
      exact ⟨u, (List.mem_filter.mp hu).1, named, (List.mem_filter.mp hu).2⟩
    · rintro ⟨u, hu, named, unreadable⟩
      exact ⟨u, List.mem_filter.mpr ⟨hu, unreadable⟩, named⟩
  have member : ∀ u, u ∈ accepted ↔ u ∈ vs ∧ r.accepts repository name u = true := fun u => by
    rw [accepts, List.mem_filter]
  rw [← Entry.isSome_version?_iff]
  cases hn : accepted.find? fun t => t.name == n with
  | some u =>
    obtain rfl : u.name = n := by simpa using List.find?_some hn
    obtain ⟨v, hv, -⟩ := listed u hn
    obtain ⟨hu, accepted⟩ := (member u).mp (List.mem_of_find?_eq_some hn)
    exact iff_of_true (by rw [hv]; rfl) (.inl ⟨u, hu, rfl, accepted⟩)
  | none =>
    have absent : ∀ u ∈ accepted, u.name ≠ n := by simpa using hn
    have not_accepted : ¬ ∃ u ∈ vs, u.name = n ∧ r.accepts repository name u = true :=
      fun ⟨u, hu, named, accepted⟩ => absent u ((member u).mpr ⟨hu, accepted⟩) named
    rw [unlisted n absent, or_iff_right not_accepted, ← unreadable]
    constructor
    · intro kept
      obtain ⟨v, hv⟩ := Option.isSome_iff_exists.mp kept
      obtain ⟨found, kept⟩ := Option.filter_eq_some_iff.mp hv
      obtain ⟨member, named⟩ := (Entry.version?_eq_some_iff distinct).mp found
      exact ⟨v, member, named, by simpa using kept⟩
    · rintro ⟨v, member, named, kept⟩
      rw [(Entry.version?_eq_some_iff distinct).mpr ⟨member, named⟩, Option.filter_some, if_pos (by simpa using kept)]
      rfl

theorem commits_of_synced (distinct : e.HasDistinctNames) :
    ∀ v ∈ e.versions, v.frozen = false → ∀ u,
      (vs.filter (r.accepts repository name)).find? (fun u => u.name == v.name) = some u →
        v.commitId = some u.commitId := by
  intro v hv mutable u hu
  have named : u.name = v.name := by simpa using List.find?_some hu
  rw [← accepts, ← named] at hu
  obtain ⟨w, hw, synced⟩ := listed u hu
  obtain rfl := Option.some.inj (hw.symm.trans ((Entry.version?_eq_some_iff distinct).mpr ⟨hv, named.symm⟩))
  rcases synced with frozen | commit
  · rw [mutable] at frozen
    exact nomatch frozen
  · exact commit

end Versions

/-- A job of a refresh that was done in full makes its entry catch up. -/
theorem caughtUp_of_effect (surveyed : surveyOf c.world.remote repository vs = .ok survey) {path : EntryPath}
    {name : Option String} {old last : Option Entry} {out : List SyncResult}
    (distinct : ∀ e, old = some e → e.HasDistinctNames)
    (effect : (refreshJob path survey name).Effect c old (.ok ()) last out) (success : ∀ x ∈ out, x.success = true) :
    CaughtUp c.world.remote repository vs name old (last.or old) := by
  have accepts : (refreshJob path survey name).listing.versions = vs.filter (c.world.remote.accepts repository name) :=
    remotes_of_surveyOf surveyed name
  obtain ⟨rfl, rfl, sources⟩ | ⟨before, isNew, d, begins, succeeded, new⟩ := effect.of_success success
  · refine caughtUp_none ?_
    rw [← accepts, refreshJob, Survey.listingOf, show survey.sourcesOf name = [] from sources]
    rfl
  have before_distinct := begins.distinct distinct
  have first := Job.distinct_firstWork (j := refreshJob path survey name) (d := d) before_distinct
  have listed := fun u hu => Sync.version?_of_listed (r := u) first begins.compared rfl succeeded hu
  let w := Sync.progress c (survey.sourcesOf name) ((refreshJob path survey name).firstWork before d) d.changes
  have unlisted : ∀ n, (∀ u ∈ (refreshJob path survey name).listing.versions, u.name ≠ n) →
      w.entry.version? n = (before.version? n).filter fun v => v.frozen || survey.unreadable.contains n := fun n hn =>
    (Sync.version?_of_unlisted first begins.compared rfl hn).trans (congrArg _ (Job.version?_firstWork _ before d n))
  have names := names_of_synced accepts listed surveyed unlisted before_distinct
  have commits := commits_of_synced accepts listed (Sync.distinct_progress first d.changes)
  have start := Job.startingPoint_eq_some begins.start
  have versions_old : versionsOf old = before.versions := by
    obtain ⟨rfl, -⟩ | ⟨rfl, -, s, _, -, rfl⟩ := start <;> rfl
  have versions_new : versionsOf (last.or old) = w.entry.versions := by
    obtain new | ⟨rfl, rfl, new⟩ := new
    · rw [new]
      rfl
    · exact new.symm
  refine ⟨fun n => ?_, ?_, fun known => ?_, fun absent => ?_⟩
  · rw [versions_new, versions_old]
    exact names n
  · rw [versions_new]
    exact commits
  · rw [Option.isSome_or, known, Bool.or_true]
  · obtain ⟨found, -⟩ | ⟨-, -, s, rest, sources, -⟩ := start
    · rw [absent] at found
      exact nomatch found
    have some_accepted : s.remote ∈ vs.filter (c.world.remote.accepts repository name) := by
      rw [← accepts, show (refreshJob path survey name).listing.versions = _ from
        congrArg (List.map VersionSource.remote) sources]
      exact List.mem_cons_self
    obtain ⟨hs, accepted⟩ := List.mem_filter.mp some_accepted
    refine iff_of_true ?_ ⟨s.remote, hs, accepted⟩
    -- A version of that name was made, so the new entry was worth saving.
    obtain ⟨v, hv, -⟩ := (names s.remote.name).mpr (.inl ⟨s.remote, hs, rfl, accepted⟩)
    exact isSome_of_mem_versionsOf (versions_new ▸ hv)

section Refreshed

variable {s t : Store} (hs : s.WellFormed) {p : EntryPath} (surveyed : surveyOf c.world.remote repository vs = .ok survey)
  {out : List SyncResult}
  (effects : Job.Effects c (refreshJobs p survey (survey.names (s.forRepository p))) s (.ok ()) t out)
  (plain : ∀ j ∈ refreshJobs p survey (survey.names (s.forRepository p)), j.path.IsPlain) {name : Option String}
include hs surveyed effects plain

/-- An entry that is declared somewhere or on record has its job. -/
theorem caughtUp_of_known (distinct : ((refreshJobs p survey (survey.names (s.forRepository p))).map Job.path).Nodup)
    (success : ∀ x ∈ out, x.success = true) (known : name ∈ survey.names (s.forRepository p)) :
    CaughtUp c.world.remote repository vs name (s.entry? { p with name := name }) (t.entry? { p with name := name }) := by
  obtain ⟨r, last, out', part, sub, ok⟩ | ⟨stopped, -⟩ := (effects.part hs plain distinct).1 (refreshJob p survey name)
    (List.mem_map_of_mem known)
  · obtain rfl := ok rfl
    have caughtUp := caughtUp_of_effect surveyed (fun e found => (hs.entries.entry? found).distinct) part.effect
      fun x hx => success x (sub x hx)
    rw [← part.entry?] at caughtUp
    exact caughtUp
  · exact absurd rfl stopped

/-- Any other entry is nowhere, neither before nor after. -/
theorem caughtUp_of_unknown (unknown : name ∉ survey.names (s.forRepository p)) :
    CaughtUp c.world.remote repository vs name (s.entry? { p with name := name }) (t.entry? { p with name := name }) := by
  have others : ∀ j ∈ refreshJobs p survey (survey.names (s.forRepository p)), j.path ≠ { p with name := name } := by
    intro j hj same
    obtain ⟨other, known, rfl⟩ := List.mem_map.mp hj
    obtain rfl : other = name := congrArg EntryPath.name same
    exact unknown known
  rw [Survey.mem_names, not_or] at unknown
  have absent : s.entry? { p with name := name } = none := by
    rw [Option.eq_none_iff_forall_ne_some]
    intro e found
    obtain ⟨member, same⟩ := hs.entry?_eq_some_iff.mp found
    refine unknown.2 ⟨e, List.mem_filter.mpr ⟨member, ?_⟩, congrArg EntryPath.name same⟩
    exact EntryPath.sameRepository_iff.mpr ⟨name, same⟩
  rw [effects.untouched hs plain others, absent]
  refine caughtUp_none ?_
  rw [← remotes_of_surveyOf surveyed name, List.map_eq_nil_iff, Survey.sourcesOf, List.filter_eq_nil_iff]
  exact fun v hv named => unknown.1 ⟨v, hv, by simpa using named⟩

end Refreshed

/-- In a catalog that can come about, every entry of a repository has caught up with it after a refresh of the
repository that is done. -/
theorem refresh_catches_up {s : Store} (h : s.Reachable) (c : Context) (repository username : String)
    (done : (run c s (.refresh repository username)).isDone = true) :
    ∃ p vs, repositoryPath repository = .ok p ∧ c.world.remote.list repository = .ok vs ∧
      ∀ q : EntryPath, q.sameRepository p = true →
        CaughtUp c.world.remote repository vs q.name (s.entry? q)
          ((run c s (.refresh repository username)).store.entry? q) := by
  have hs := h.wellFormed
  cases ends_run c s (.refresh repository username) with
  | refused _ _ results =>
    rw [Outcome.isDone, results] at done
    exact nomatch (success_of_closed done).1
  | acted plan deed results =>
    rw [Outcome.isDone, results] at done
    obtain ⟨rfl, success⟩ := success_of_closed done
    have planned := planned plan
    cases planned with
    | @refresh _ _ p vs survey path listed surveyed =>
      have planned : Planned c s (.refresh repository username) (.jobs _) := .refresh path listed surveyed
      cases deed with
      | jobs effects =>
        refine ⟨p, vs, path, listed, fun q same => ?_⟩
        obtain ⟨name, rfl⟩ := EntryPath.sameRepository_iff.mp same
        by_cases known : name ∈ survey.names (s.forRepository p)
        · exact caughtUp_of_known hs surveyed effects planned.plain_jobs planned.distinct_jobs success known
        · exact caughtUp_of_unknown hs surveyed effects planned.plain_jobs known

/-- The small catalog catches up with a branch that has moved and a tag that is new. -/
theorem sample_catches_up :
    let vs : List RemoteVersion := [{ Sample.main with commitId := "c2" }, ⟨"v1", .tag, "c1", none⟩]
    (run (Sample.context vs) Sample.refreshed.1 Sample.refresh).isDone = true ∧
      ∃ p, repositoryPath "org/repo" = .ok p ∧ ∀ q : EntryPath, q.sameRepository p = true →
        CaughtUp (Sample.remote vs) "org/repo" vs q.name (Sample.refreshed.val.entry? q)
          ((run (Sample.context vs) Sample.refreshed.1 Sample.refresh).store.entry? q) := by
  intro vs
  have done : (run (Sample.context vs) Sample.refreshed.1 Sample.refresh).isDone = true := by decide +kernel
  obtain ⟨p, listed, path, list, caughtUp⟩ :=
    refresh_catches_up Sample.refreshed.2 (Sample.context vs) "org/repo" "alice" done
  obtain rfl := Except.ok.inj list
  exact ⟨done, p, path, caughtUp⟩

end Reconcile

end WorkflowCatalog
