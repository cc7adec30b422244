import WorkflowCatalog.Proofs.Additions

/-!
# Pushes and a refresh agree

A repository may be told push by push, each for one reference, or be read as a whole. From a catalog without entries
both lead to the same entries with the same versions, and it makes no difference in which order the pushes come.
-/
namespace WorkflowCatalog

/-! ## Entries that agree -/

/-- What is at an address in two catalogs is the same: nothing in either, or entries of one kind and language with the
same versions. -/
inductive Entry.Agree (t : Timestamp) : Option Entry → Option Entry → Prop
  | nothing : Agree t none none
  | entry {e f : Entry} (path : e.path = f.path) (kind : e.kind = f.kind) (language : e.language = f.language)
      (versions : ∀ n, (e.version? n).map (Version.shown t e.defaultDescriptorPath) =
        (f.version? n).map (Version.shown t f.defaultDescriptorPath)) : Agree t (some e) (some f)

/-- What comes of the same sources agrees, in whatever order they have come. -/
theorem Shows.agree {c : Context} {t : Timestamp} {q : EntryPath} {sources others : List VersionSource}
    {old new : Option Entry} (h : Shows c t q sources old) (h' : Shows c t q others new)
    (compatible : Compatible sources) (same : sources.Perm others) : Entry.Agree t old new := by
  cases h with
  | nothing =>
    obtain rfl := List.nil_perm.mp same
    cases h' with
    | nothing => exact .nothing
    | entry declared => exact absurd rfl declared
  | entry declared path agreed versions =>
    obtain ⟨u, hu⟩ := List.exists_mem_of_ne_nil _ declared
    cases h' with
    | nothing => exact absurd (List.perm_nil.mp same) declared
    | entry _ path' agreed' versions' =>
      have first := agreed u hu
      have second := agreed' u (same.subset hu)
      refine .entry (path.trans path'.symm) (first.2.symm.trans second.2) (first.1.symm.trans second.1) fun n => ?_
      rw [versions, versions', Keyed.find?_perm same compatible.names]

/-! ## A repository in a snapshot -/

/-- What the manifest at a reference declares, if it is there and right. -/
def Remote.declared (r : Remote) (repository reference : String) : List Declaration :=
  match Reconcile.manifestOn r repository reference with
  | .ok (_, m) => m.entries
  | .error _ => []

/-- The versions of a repository have different names, which are valid and short, and whatever declares an entry of one
name states the same language for it. -/
structure Snapshot.Consistent (snap : Snapshot) (repository : String) (vs : List SnapshotVersion) : Prop where
  known : snap.versions? repository = some vs
  distinct : (vs.map SnapshotVersion.name).Nodup
  short : ∀ v ∈ vs, v.IsShort
  languages : ∀ v ∈ vs, ∀ w ∈ vs, ∀ d ∈ snap.remote.declared repository v.name,
    ∀ e ∈ snap.remote.declared repository w.name, d.name = e.name → d.language = e.language

/-- What the manifests at some versions say of the entries that accept them, version by version. -/
def Snapshot.sources (snap : Snapshot) (repository : String) (vs : List SnapshotVersion) : List VersionSource :=
  vs.flatMap fun v => Reconcile.sourcesOn snap.remote repository v.listed

/-- A call at some time with the default options, which works with the snapshot and is not disturbed. -/
def Snapshot.context (snap : Snapshot) (now : Timestamp) : Context where
  world := ⟨snap.remote, fun _ => false, fun _ => none, fun _ => none, fun _ => true⟩
  options := .initial
  languages := Language.all
  now := now

/-- A push of a version: which it is, which installation tells of it, and when it is handled. -/
structure Delivery where
  version : SnapshotVersion
  installation : String
  now : Timestamp

/-- The event that tells of the push, with the reference in full. -/
def Delivery.event (d : Delivery) (repository username : String) : WebhookEvent where
  repository := repository
  gitReference := GitReference.toText ⟨d.version.referenceType, d.version.name⟩
  username := username
  installationId := d.installation
  type := .push

/-- The catalog after several pushes, one after the other. -/
def Snapshot.deliver (snap : Snapshot) (repository username : String) (s : Store) (ds : List Delivery) : Store :=
  ds.foldl (fun s d => (Reconcile.run (snap.context d.now) s (.event (d.event repository username))).store) s

namespace Reconcile

variable {r : Remote} {repository username : String} {snap : Snapshot} {vs : List SnapshotVersion} {p : EntryPath}
  {s : Store} {now t : Timestamp}

theorem sourcesOn_of_error {v : RemoteVersion} {e : SyncError} (h : manifestOn r repository v.name = .error e) :
    sourcesOn r repository v = [] := by
  unfold sourcesOn
  unfold manifestOn at h
  cases hf : r.text repository v.name Manifest.path with
  | error err => rfl
  | ok found =>
    cases found with
    | none => rfl
    | some text =>
      cases hm : Manifest.parse text with
      | error err => simp only [surveyed, hm]
      | ok m => simp [hf, hm, bind, Except.bind, pure, Except.pure] at h

theorem sourcesOn_of_ok {v : RemoteVersion} {text : String} {m : Manifest}
    (h : manifestOn r repository v.name = .ok (text, m)) :
    sourcesOn r repository v =
      (m.entries.filter fun d => d.filters.accepts v.referenceType v.name).map fun d => ⟨v, d, text⟩ := by
  obtain ⟨found, parsed⟩ := manifestOn_eq_ok h
  simp only [sourcesOn, found, surveyed, parsed]

/-- A source is of the version, and what it declares is declared there. -/
theorem of_mem_sourcesOn {v : RemoteVersion} {u : VersionSource} (hu : u ∈ sourcesOn r repository v) :
    u.remote = v ∧ u.declaration ∈ r.declared repository v.name ∧ u.declaration.WellFormed := by
  cases found : manifestOn r repository v.name with
  | error e =>
    rw [sourcesOn_of_error found] at hu
    exact absurd hu List.not_mem_nil
  | ok read =>
    obtain ⟨text, m⟩ := read
    rw [sourcesOn_of_ok found] at hu
    obtain ⟨d, hd, rfl⟩ := List.mem_map.mp hu
    have member := (List.mem_filter.mp hd).1
    refine ⟨rfl, ?_, (Manifest.wellFormed_of_parse (manifestOn_eq_ok found).2).entries d member⟩
    rw [Remote.declared, found]
    exact member

theorem declared_of_mem {u : VersionSource} (hu : u ∈ snap.sources repository vs) :
    ∃ v ∈ vs, u.remote = v.listed ∧ u.declaration ∈ snap.remote.declared repository v.name ∧
      u.declaration.WellFormed := by
  obtain ⟨v, hv, hu⟩ := List.mem_flatMap.mp hu
  exact ⟨v, hv, of_mem_sourcesOn hu⟩

section Snapshot

variable (h : snap.Consistent repository vs)
include h

theorem survey_of_snapshot : ∃ survey, surveyOf snap.remote repository (vs.map SnapshotVersion.listed) = .ok survey ∧
    survey.sources = snap.sources repository vs := by
  have answers : ∀ r ∈ vs.map SnapshotVersion.listed, snap.remote.Answers repository r.name := by
    intro r hr
    obtain ⟨v, hv, rfl⟩ := List.mem_map.mp hr
    exact Snapshot.answers_remote h.known hv (h.short v hv).short
  obtain ⟨survey, surveyed⟩ := surveyOf_eq_ok answers
  exact ⟨survey, surveyed, (sources_of_surveyOf surveyed).trans (List.flatMap_map ..)⟩

/-- The sources of one entry in the repository are for different versions and of one language. -/
theorem compatible_sources (p q : EntryPath) : Compatible (sourcesAt p q (snap.sources repository vs)) where
  names := by
    obtain ⟨survey, surveyed, sources⟩ := survey_of_snapshot h
    obtain ⟨name, rfl⟩ | ⟨-, nothing⟩ := sourcesAt_cases p q
    · have remotes : (survey.sourcesOf name).map (fun s => s.remote.name) =
          ((vs.map SnapshotVersion.listed).filter (snap.remote.accepts repository name)).map RemoteVersion.name := by
        rw [← remotes_of_surveyOf surveyed, List.map_map]
        rfl
      have names : (vs.map SnapshotVersion.listed).map RemoteVersion.name = vs.map SnapshotVersion.name := by
        rw [List.map_map]
        rfl
      rw [← sources, sourcesAt_survey, remotes]
      exact (List.filter_sublist.map _).nodup (names ▸ h.distinct)
    · rw [nothing]
      exact List.nodup_nil
  agreed u hu w hw := by
    obtain ⟨hu, near⟩ := List.mem_filter.mp hu
    obtain ⟨hw, near'⟩ := List.mem_filter.mp hw
    obtain ⟨v, hv, -, declared, valid⟩ := declared_of_mem hu
    obtain ⟨v', hv', -, declared', valid'⟩ := declared_of_mem hw
    have name : u.declaration.name = w.declaration.name :=
      withName_inj.mp ((of_decide_eq_true near).trans (of_decide_eq_true near').symm)
    have language := h.languages v hv v' hv' _ declared _ declared' name
    exact ⟨language, valid.kind_eq valid' language⟩

variable (path : repositoryPath repository = .ok p)
include path

/-- Any source of a listed version is built where there is no such version yet. -/
theorem builds_of_snapshot {v : SnapshotVersion} (hv : v ∈ vs) {u : VersionSource} (remote : u.remote = v.listed)
    {e : Entry} {name : Option String} (at_path : e.path = { p with name := name })
    (language : u.declaration.language = e.language) (absent : e.version? u.remote.name = none) :
    ∃ w, (Build.version (snap.context now) e u).answer = .ok w := by
  have address : e.path.repositoryPath = repository := by
    rw [at_path]
    exact (address_of_repositoryPath path : p.repositoryPath = repository)
  have answers : snap.remote.Answers repository u.remote.name := by
    rw [remote]
    exact Snapshot.answers_remote h.known hv (h.short v hv).short
  have supported : (snap.context now).languages.contains e.language = true := by
    cases e.language <;> rfl
  exact Build.version_eq_ok language supported absent (address ▸ answers)

theorem extends_push {d : Delivery} (hd : d.version ∈ vs) {text : String} {m : Manifest}
    (found : manifestOn snap.remote repository d.version.name = .ok (text, m))
    {earlier : EntryPath → List VersionSource}
    (compatible : ∀ q, Compatible (earlier q ++ sourcesAt p q (sourcesOn snap.remote repository d.version.listed))) :
    ∀ j ∈ pushJobs p text d.version.listed m.entries, j.Extends (snap.context d.now) (earlier j.path) := by
  intro j hj
  obtain ⟨e, he, rfl⟩ := List.mem_map.mp hj
  have source : ⟨d.version.listed, e, text⟩ ∈
      sourcesAt p { p with name := e.name } (sourcesOn snap.remote repository d.version.listed) := by
    rw [sourcesOn_of_ok (v := d.version.listed) found]
    exact List.mem_filter.mpr ⟨List.mem_map_of_mem he, decide_eq_true rfl⟩
  exact {
    complete := rfl
    cover := rfl
    keeps := .inl rfl
    declared := List.cons_ne_nil _ _
    compatible := (compatible _).sublist ((List.Sublist.refl _).append (List.singleton_sublist.mpr source))
    builds := fun s hs f at_path language absent => by
      obtain rfl := List.mem_singleton.mp hs
      exact builds_of_snapshot h path hd rfl at_path language absent }

theorem extends_refresh {survey : Survey} (sources : survey.sources = snap.sources repository vs) :
    ∀ j ∈ refreshJobs p survey (survey.names []), j.Extends (snap.context now) [] := by
  intro j hj
  obtain ⟨name, hn, rfl⟩ := List.mem_map.mp hj
  exact {
    complete := rfl
    cover := rfl
    keeps := .inr rfl
    declared := by
      obtain ⟨u, hu, named⟩ | ⟨e, he, -⟩ := Survey.mem_names.mp hn
      · exact List.ne_nil_of_mem (List.mem_filter.mpr ⟨hu, beq_iff_eq.mpr named⟩)
      · exact absurd he List.not_mem_nil
    compatible := by
      have all := compatible_sources h p { p with name := name }
      rw [← sources, sourcesAt_survey] at all
      exact all
    builds := fun u hu f at_path language absent => by
      have there := (List.mem_filter.mp hu).1
      rw [sources] at there
      obtain ⟨v, hv, remote, -⟩ := declared_of_mem there
      exact builds_of_snapshot h path hv remote at_path language absent }

variable (user : s.hasUser username = true)
include user

/-- A push has one job for each declaration that accepts the version, if there is a manifest and it is right. -/
theorem plan_push {d : Delivery} (hd : d.version ∈ vs) :
    plan (snap.context d.now) s (.event (d.event repository username)) =
      (manifestOn snap.remote repository d.version.name).map fun found =>
        .jobs (pushJobs p found.1 d.version.listed found.2.entries) := by
  have short := h.short d.version hd
  have reference : GitReference.parse (GitReference.toText ⟨d.version.referenceType, d.version.name⟩) =
      .ok ⟨d.version.referenceType, d.version.name⟩ := GitReference.parse_toText short.type short.valid
  have listed : listedOn snap.remote repository d.version.name = .ok d.version.listed := by
    rw [listedOn, Snapshot.describe_remote h.known h.distinct hd]
    rfl
  have known : checkedUser (snap.context d.now) s username = .ok () := checkedUser_eq_ok rfl user
  have remote : (snap.context d.now).world.remote = snap.remote := rfl
  simp only [plan, planPush, Delivery.event, reference, known, path, remote, listed, bind, Except.bind]
  cases manifestOn snap.remote repository d.version.name <;> rfl

theorem plan_refresh (now : Timestamp) {survey : Survey}
    (surveyed : surveyOf snap.remote repository (vs.map SnapshotVersion.listed) = .ok survey) :
    plan (snap.context now) s (.refresh repository username) =
      .ok (.jobs (refreshJobs p survey (survey.names (s.forRepository p)))) := by
  have known : checkedUser (snap.context now) s username = .ok () := checkedUser_eq_ok rfl user
  have remote : (snap.context now).world.remote = snap.remote := rfl
  simp only [plan, planRefresh, known, path, remote, Snapshot.list_remote h.known, surveyed, bind, Except.bind]
  rfl

/-- A push adds the sources of its version to what is shown. -/
theorem shows_push (hs : s.WellFormed) {d : Delivery} (hd : d.version ∈ vs)
    {earlier : EntryPath → List VersionSource} (shows : ∀ q, Shows (snap.context t) t q (earlier q) (s.entry? q))
    (compatible : ∀ q, Compatible (earlier q ++ sourcesAt p q (sourcesOn snap.remote repository d.version.listed)))
    (q : EntryPath) :
    Shows (snap.context t) t q (earlier q ++ sourcesAt p q (sourcesOn snap.remote repository d.version.listed))
      (Store.entry? (run (snap.context d.now) s (.event (d.event repository username))).store q) := by
  have planned := plan_push h path user hd
  cases found : manifestOn snap.remote repository d.version.name with
  | error e =>
    rw [found] at planned
    rw [store_of_refused planned, sourcesOn_of_error (v := d.version.listed) found]
    simpa [sourcesAt] using shows q
  | ok read =>
    obtain ⟨text, m⟩ := read
    rw [found] at planned
    rw [sourcesOn_of_ok (v := d.version.listed) found, ← sourcesAt_pushJobs p q text]
    exact shows_run (c := snap.context t) ⟨fun _ => rfl, fun _ => rfl⟩ rfl rfl hs planned shows
      (extends_push h path hd found compatible) q

theorem shows_deliver (hs : s.WellFormed) {ds : List Delivery} (delivered : ∀ d ∈ ds, d.version ∈ vs)
    {earlier : EntryPath → List VersionSource} (shows : ∀ q, Shows (snap.context t) t q (earlier q) (s.entry? q))
    (compatible : ∀ q, Compatible (earlier q ++ sourcesAt p q (snap.sources repository (ds.map Delivery.version))))
    (q : EntryPath) :
    Shows (snap.context t) t q (earlier q ++ sourcesAt p q (snap.sources repository (ds.map Delivery.version)))
      (Store.entry? (snap.deliver repository username s ds) q) := by
  induction ds generalizing s earlier with
  | nil => simpa [Snapshot.deliver, Snapshot.sources, sourcesAt] using shows q
  | cons d ds ih =>
    rw [List.forall_mem_cons] at delivered
    simp only [Snapshot.sources, List.map_cons, List.flatMap_cons, sourcesAt_append, ← List.append_assoc]
      at compatible ih ⊢
    have next := shows_push h path user hs delivered.1 shows fun q =>
      (compatible q).sublist (List.sublist_append_left _ _)
    have users := (Entry.invariant_wellFormed.run (c := snap.context d.now) hs.entries
      (.event (d.event repository username))).users
    have known := user
    rw [Store.hasUser, ← users] at known
    exact ih known (hs.run _ _) delivered.2 next compatible

theorem shows_refresh (empty : s.entries = []) (q : EntryPath) :
    Shows (snap.context t) t q (sourcesAt p q (snap.sources repository vs))
      (Store.entry? (run (snap.context now) s (.refresh repository username)).store q) := by
  obtain ⟨survey, surveyed, sources⟩ := survey_of_snapshot h
  have planned := plan_refresh h path user now surveyed
  have existing : s.forRepository p = [] := by rw [Store.forRepository, empty, List.filter_nil]
  have shows (q : EntryPath) : Shows (snap.context t) t q [] (s.entry? q) := by
    rw [Store.entry?, empty]
    exact .nothing
  rw [existing] at planned
  rw [← sources, ← sourcesAt_refreshJobs]
  exact shows_run (c := snap.context t) ⟨fun _ => rfl, fun _ => rfl⟩ rfl rfl (.of_empty empty) planned shows
    (extends_refresh h path sources) q

end Snapshot

theorem deliver_of_no_address {e : SyncError} (nowhere : repositoryPath repository = .error e) (s : Store)
    (ds : List Delivery) : snap.deliver repository username s ds = s := by
  induction ds with
  | nil => rfl
  | cons d ds ih =>
    rw [Snapshot.deliver, List.foldl_cons, store_of_no_address (.event (d.event repository username)) nowhere]
    exact ih

end Reconcile

namespace Sample

/-- A branch, and a tag at which the manifest names another descriptor. -/
def branch : SnapshotVersion := ⟨"main", .branch, "c1", files⟩

def tag : SnapshotVersion where
  name := "v1"
  referenceType := .tag
  commitId := "c2"
  files := (Manifest.path, "version: 1.2\nworkflows:\n- subclass: WDL\n  primaryDescriptorPath: /t") :: files

def snapshot : Snapshot := ⟨[("org/repo", [branch, tag])]⟩

/-- The tag is told first. -/
def deliveries : List Delivery := [⟨tag, "7", now⟩, ⟨branch, "7", now⟩]

theorem consistent_snapshot : snapshot.Consistent "org/repo" [branch, tag] where
  known := rfl
  distinct := by decide +kernel
  short v hv := by
    have type : ∀ v ∈ [branch, tag], v.referenceType = .branch ∨ v.referenceType = .tag := by decide
    have valid : ∀ v ∈ [branch, tag], GitReference.isName v.name.toList = true := by decide +kernel
    have short : ∀ v ∈ [branch, tag], GitReference.split? v.name.toList = none := by decide +kernel
    exact ⟨type v hv, valid v hv, short v hv⟩
  languages := by decide +kernel

end Sample

namespace Reconcile

variable {repository username : String} {snap : Snapshot} {vs : List SnapshotVersion}

/-- Pushes of all versions of a repository, each told once and in any order, and a refresh of the repository lead from
a catalog without entries to the same entries. -/
theorem pushes_agree_with_refresh (h : snap.Consistent repository vs) {start : Store} (empty : start.entries = [])
    (user : start.hasUser username = true) {deliveries : List Delivery}
    (once : (deliveries.map Delivery.version).Perm vs) (now t : Timestamp) (q : EntryPath) :
    Entry.Agree t (Store.entry? (snap.deliver repository username start deliveries) q)
      (Store.entry? (run (snap.context now) start (.refresh repository username)).store q) := by
  cases path : repositoryPath repository with
  | error e =>
    have nothing : start.entry? q = none := by rw [Store.entry?, empty, List.find?_nil]
    rw [deliver_of_no_address path, store_of_no_address (.refresh repository username) path, nothing]
    exact .nothing
  | ok p =>
    have same (q : EntryPath) : (sourcesAt p q (snap.sources repository (deliveries.map Delivery.version))).Perm
        (sourcesAt p q (snap.sources repository vs)) := (once.flatMap_right _).filter _
    have compatible (q : EntryPath) := (compatible_sources h p q).perm (same q)
    have start_shows (q : EntryPath) : Shows (snap.context t) t q [] (start.entry? q) := by
      rw [Store.entry?, empty]
      exact .nothing
    have delivered : ∀ d ∈ deliveries, d.version ∈ vs := fun d hd => once.subset (List.mem_map_of_mem hd)
    have pushed := shows_deliver h path user (.of_empty empty) delivered start_shows compatible q
    exact pushed.agree (shows_refresh h path user empty q) (compatible q) (same q)

/-- Told first, the tag decides which path the entry keeps as its default; a refresh goes by the branch. The versions
agree nonetheless. -/
theorem sample_pushes_agree :
    let start := Sample.registered.1
    let pushed := Sample.snapshot.deliver "org/repo" "alice" start Sample.deliveries
    let again := (run (Sample.snapshot.context Sample.now) start Sample.refresh).store
    (pushed.entry? Sample.path).map Entry.defaultDescriptorPath = some "/t" ∧
      (again.entry? Sample.path).map Entry.defaultDescriptorPath = some "/m" ∧
        Entry.Agree Sample.now (pushed.entry? Sample.path) (again.entry? Sample.path) := by
  have user : Sample.registered.1.hasUser "alice" = true := by decide +kernel
  have once : (Sample.deliveries.map Delivery.version).Perm [Sample.branch, Sample.tag] := .swap ..
  refine ⟨by decide +kernel, by decide +kernel, ?_⟩
  exact pushes_agree_with_refresh Sample.consistent_snapshot rfl user once Sample.now Sample.now Sample.path

end Reconcile

end WorkflowCatalog
