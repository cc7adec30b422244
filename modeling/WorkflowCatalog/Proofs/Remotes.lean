import WorkflowCatalog.Proofs.Reports

/-!
# The same call on another remote

Of a remote, a refresh reads the listing, the manifest of each listed version, and the files of the versions that it
builds. So two remotes that agree on these are the same for the call, whatever else they hold.
-/
namespace WorkflowCatalog

/-- The same call on another remote. -/
def Context.withRemote (c : Context) (r : Remote) : Context := { c with world := { c.world with remote := r } }

theorem Context.IsQuiet.withRemote {c : Context} (h : c.IsQuiet) (r : Remote) : (c.withRemote r).IsQuiet :=
  ⟨h.lasting, h.saving⟩

theorem Remote.text_congr {r r' : Remote} {repository reference path : String}
    (same : r'.file repository reference path = r.file repository reference path) :
    r'.text repository reference path = r.text repository reference path := by
  rw [text, same, text]

/-- A build reads files of its own reference only. -/
theorem Build.version_withRemote {c : Context} {r : Remote} {e : Entry} {s : VersionSource}
    (same : ∀ path, r.file e.path.repositoryPath s.remote.name path =
      c.world.remote.file e.path.repositoryPath s.remote.name path) : version (c.withRemote r) e s = version c e s := by
  have texts : Fetch.text (c.withRemote r) e.path.repositoryPath s.remote.name =
      Fetch.text c e.path.repositoryPath s.remote.name := by
    funext path
    change (do return (← (do
      modify (Action.fetch e.path.repositoryPath s.remote.name path :: ·)
      Fetch.ofExcept (r.file e.path.repositoryPath s.remote.name path) : Fetch _)).map Text.ofBytes) = _
    rw [same path]
    rfl
  have descriptors (path : String) (checks : List Validation) :
      descriptorFiles (c.withRemote r) e.path.repositoryPath s.remote.name path e.language s.manifestText checks =
        descriptorFiles c e.path.repositoryPath s.remote.name path e.language s.manifestText checks := by
    simp only [descriptorFiles, primaryText, texts]
    rfl
  have tests (type : FileType) (paths : List String) (checks : List Validation) :
      testFiles (c.withRemote r) e.path.repositoryPath s.remote.name type paths checks =
        testFiles c e.path.repositoryPath s.remote.name type paths checks := by
    induction paths generalizing checks with
    | nil => rfl
    | cons path paths ih =>
      simp only [testFiles, ih, texts]
      rfl
  simp only [version, revise, collect, gather, parameterFiles, descriptors, tests]
  rfl

namespace Sync

variable {α : Type} {c : Context} {sources : List VersionSource}

/-- What is seen of a version that is rebuilt is seen of the build from its source. -/
theorem map_rebuilt? (view : Version → α) (e : Entry) (n : String) :
    ((rebuilt? c sources e n).bind Except.toOption).map view =
      (sources.find? fun s => s.remote.name == n).bind fun s => ((Build.version c e s).answer.map view).toOption := by
  unfold rebuilt?
  cases sources.find? fun s => s.remote.name == n with
  | none => rfl
  | some s =>
    change ((Build.version c e s).answer.toOption).map view = ((Build.version c e s).answer.map view).toOption
    cases (Build.version c e s).answer <;> rfl

end Sync

namespace Reconcile

variable {c c' : Context} {s : Store} {repository username : String} {r : Remote} {vs : List RemoteVersion}

/-- A survey is made if every manifest can be asked for. -/
theorem surveyOf_of_fetched (fetched : ∀ v ∈ vs, ∃ found, r.text repository v.name Manifest.path = .ok found) :
    ∃ survey, surveyOf r repository vs = .ok survey := by
  induction vs with
  | nil => exact ⟨_, rfl⟩
  | cons v vs ih =>
    rw [List.forall_mem_cons] at fetched
    obtain ⟨⟨found, text⟩, others⟩ := fetched
    obtain ⟨rest, surveyed⟩ := ih others
    simp only [surveyOf, text, surveyed]
    exact ⟨_, rfl⟩

/-- There are jobs for a refresh if its user has an account, its repository an address, and everything can be read. -/
theorem plan_refresh_eq_ok_iff {a : Agenda} : plan c s (.refresh repository username) = .ok a ↔
    checkedUser c s username = .ok () ∧ ∃ p vs survey, repositoryPath repository = .ok p ∧
      c.world.remote.list repository = .ok vs ∧ surveyOf c.world.remote repository vs = .ok survey ∧
      c.world.lookupFault .entriesForRepository = none ∧
      a = .jobs (refreshJobs p survey (survey.names (s.forRepository p))) := by
  change planRefresh c s repository username = .ok a ↔ _
  unfold planRefresh
  cases checkedUser c s username with
  | error e => simp [bind, Except.bind]
  | ok known =>
    cases repositoryPath repository with
    | error e => simp [bind, Except.bind]
    | ok p =>
      cases c.world.remote.list repository with
      | error e => simp [bind, Except.bind]
      | ok vs =>
        cases hs : surveyOf c.world.remote repository vs with
        | error e => simp [bind, Except.bind, hs]
        | ok survey =>
          cases hf : c.world.lookupFault .entriesForRepository with
          | some e => simp [bind, Except.bind, hs, hf, lookedUp]
          | none => simp [bind, Except.bind, hs, hf, lookedUp, pure, Except.pure, eq_comm]

theorem surveyOf_congr {r' : Remote} (same : ∀ v ∈ vs, r'.text repository v.name Manifest.path =
    r.text repository v.name Manifest.path) : surveyOf r' repository vs = surveyOf r repository vs := by
  induction vs with
  | nil => rfl
  | cons v vs ih =>
    rw [List.forall_mem_cons] at same
    rw [surveyOf, surveyOf, same.1, ih same.2]

theorem checkedUser_congr (lookups : c'.world.lookupFault = c.world.lookupFault) :
    checkedUser c' s username = checkedUser c s username := by
  unfold checkedUser lookedUp
  rw [lookups]

/-- Whether the manifest of each listed version can be asked for. -/
def Readable (r : Remote) (repository : String) (vs : List RemoteVersion) : Prop :=
  ∀ v ∈ vs, ∃ found, r.text repository v.name Manifest.path = .ok found

/-- Where one of two refreshes has something to do, so has the other if it can read its remote as well. -/
theorem plan_refresh_of_plan {vs' : List RemoteVersion} (lookups : c'.world.lookupFault = c.world.lookupFault)
    (listed : c.world.remote.list repository = .ok vs) (listed' : c'.world.remote.list repository = .ok vs')
    (readable : Readable c.world.remote repository vs → Readable c'.world.remote repository vs') {a : Agenda}
    (plan : plan c s (.refresh repository username) = .ok a) :
    ∃ p survey survey', surveyOf c.world.remote repository vs = .ok survey ∧
      surveyOf c'.world.remote repository vs' = .ok survey' ∧ repositoryPath repository = .ok p ∧
      a = .jobs (refreshJobs p survey (survey.names (s.forRepository p))) ∧
      Reconcile.plan c' s (.refresh repository username) =
        .ok (.jobs (refreshJobs p survey' (survey'.names (s.forRepository p)))) := by
  obtain ⟨user, p, us, survey, path, same, surveyed, read, rfl⟩ := plan_refresh_eq_ok_iff.mp plan
  obtain rfl := Except.ok.inj (listed.symm.trans same)
  obtain ⟨survey', surveyed'⟩ := surveyOf_of_fetched (readable (fetched_of_surveyOf surveyed))
  refine ⟨p, survey, survey', surveyed, surveyed', path, rfl, plan_refresh_eq_ok_iff.mpr ?_⟩
  exact ⟨(checkedUser_congr lookups).trans user, p, vs', survey', path, listed', surveyed', lookups ▸ read, rfl⟩

/-- Two refreshes that differ in what they read come to the same for a name if they can read as much and each of their
jobs does. -/
theorem alike_refresh {vs' : List RemoteVersion} {α : Type} {view : EntryPath → String → Version → α}
    {n : String} (hs : s.WellFormed) (quiet : c.IsQuiet) (quiet' : c'.IsQuiet)
    (lenient : c.options.isolation = .perVersion)
    (lenient' : c'.options.isolation = .perVersion) (lookups : c'.world.lookupFault = c.world.lookupFault)
    (listed : c.world.remote.list repository = .ok vs) (listed' : c'.world.remote.list repository = .ok vs')
    (readable : Readable c.world.remote repository vs ↔ Readable c'.world.remote repository vs')
    (alike : ∀ p survey survey', repositoryPath repository = .ok p →
      surveyOf c.world.remote repository vs = .ok survey → surveyOf c'.world.remote repository vs' = .ok survey' →
      (∀ existing name, name ∈ survey.names existing ↔ name ∈ survey'.names existing) ∧
        ∀ name, Job.Alike (view { p with name := name }) n c (refreshJob p survey name) c' (refreshJob p survey' name)
          (s.entry? { p with name := name })) :
    Alike view n (run c s (.refresh repository username)) (run c' s (.refresh repository username)) := by
  cases hp : plan c s (.refresh repository username) with
  | error err =>
    cases hp' : plan c' s (.refresh repository username) with
    | error err' => exact (idle_of_refused hp).alike (idle_of_refused hp')
    | ok a =>
      obtain ⟨_, _, _, _, _, _, _, planned⟩ := plan_refresh_of_plan lookups.symm listed' listed readable.mpr hp'
      exact nomatch hp.symm.trans planned
  | ok a =>
    obtain ⟨p, survey, survey', surveyed, surveyed', path, rfl, hp'⟩ :=
      plan_refresh_of_plan lookups listed listed' readable.mp hp
    obtain ⟨names, jobs⟩ := alike p survey survey' path surveyed surveyed'
    cases read : c.world.lookupFault .entry with
    | some err => exact (idle_of_unread read hp).alike (idle_of_unread (lookups ▸ read) hp')
    | none =>
      have reported := reported_run hs quiet lenient read hp
      have reported' := reported_run hs quiet' lenient' (lookups ▸ read) hp'
      exact reported.alike reported' (names _) fun name _ => jobs name

end Reconcile

end WorkflowCatalog
