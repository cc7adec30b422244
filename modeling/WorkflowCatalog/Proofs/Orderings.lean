import WorkflowCatalog.Proofs.Agreement
import WorkflowCatalog.Proofs.Remotes

/-!
# The order of a listing

A refresh takes the versions of a repository as they are listed, and the first of them gives a new entry its settings
and its default descriptor path. Apart from that the order is of no matter: each version is built from its own source,
and what is built for it does not depend on the versions that were built before.
-/
namespace WorkflowCatalog

open Sync

/-- The declarations that are made at a listed version and accept it. -/
def Remote.accepted (r : Remote) (repository : String) (v : RemoteVersion) : List Declaration :=
  (r.declared repository v.name).filter fun d => d.filters.accepts v.referenceType v.name

/-- The time of a build is of no matter but for the marks on its files. -/
theorem Build.shown_withClock (c : Context) (e : Entry) (s : VersionSource) (now t : Timestamp) (path : String) :
    (version (c.withClock now) e s).answer.map (Version.shown t path) =
      (version c e s).answer.map (Version.shown t path) := by
  have stamps : (version (c.withClock now) e s).answer.map (Version.stamped t) =
      (version c e s).answer.map (Version.stamped t) := by
    rw [← version_stamped c e s, ← version_stamped (c.withClock now) e s]
    rfl
  have shown (x : Except SyncError Version) : x.map (Version.shown t path) =
      (x.map (Version.stamped t)).map fun v => { v with descriptorPath := some (v.effectivePath path) } := by
    cases x <;> rfl
  rw [shown, shown, stamps]

namespace Reconcile

variable {r : Remote} {repository : String} {vs vs' : List RemoteVersion} {survey survey' : Survey}

theorem accepted_of_mem_survey (h : surveyOf r repository vs = .ok survey) {u : VersionSource}
    (hu : u ∈ survey.sources) :
    u.remote ∈ vs ∧ u.declaration ∈ r.accepted repository u.remote := by
  have source := isSource_of_surveyOf h u hu
  rw [sources_of_surveyOf h] at hu
  obtain ⟨v, hv, hu⟩ := List.mem_flatMap.mp hu
  obtain ⟨rfl, declared, -⟩ := of_mem_sourcesOn hu
  exact ⟨hv, List.mem_filter.mpr ⟨declared, source.accepted⟩⟩

section Reordered

variable (h : surveyOf r repository vs = .ok survey) (h' : surveyOf r repository vs' = .ok survey')
  (same : vs.Perm vs')
include h h' same

theorem sourcesOf_perm (name : Option String) : (survey.sourcesOf name).Perm (survey'.sourcesOf name) := by
  unfold Survey.sourcesOf
  rw [sources_of_surveyOf h, sources_of_surveyOf h']
  exact (same.flatMap_right _).filter _

theorem unreadable_perm : survey.unreadable.Perm survey'.unreadable := by
  rw [unreadable_of_surveyOf h, unreadable_of_surveyOf h']
  exact (same.filter _).map _

theorem mem_names_of_perm (existing : List Entry) (name : Option String) :
    name ∈ survey.names existing ↔ name ∈ survey'.names existing := by
  have sources : survey.sources.Perm survey'.sources := by
    rw [sources_of_surveyOf h, sources_of_surveyOf h']
    exact same.flatMap_right _
  simp only [Survey.mem_names, sources.mem_iff]

end Reordered

/-- Each name is listed once among the versions that an entry accepts. -/
theorem nodup_remotes (h : surveyOf r repository vs = .ok survey) (distinct : (vs.map RemoteVersion.name).Nodup)
    (name : Option String) : ((survey.sourcesOf name).map fun u => u.remote.name).Nodup := by
  have remotes := remotes_of_surveyOf h name
  have names : (survey.sourcesOf name).map (fun u => u.remote.name) =
      (vs.filter (r.accepts repository name)).map RemoteVersion.name := by
    rw [← remotes, List.map_map]
    rfl
  rw [names]
  exact distinct.sublist (List.filter_sublist.map _)

end Reconcile

namespace VersionDiff

variable {existing : List Version} {listing listing' : RemoteListing} {mode : DiffMode} {forced : List String}

theorem Reason.of_perm {change : Change} (h : Reason existing listing mode forced change)
    (versions : listing.versions.Perm listing'.versions)
    (distinct : (listing.versions.map RemoteVersion.name).Nodup)
    (protect : listing.protectedNames.Perm listing'.protectedNames) : Reason existing listing' mode forced change := by
  have found (n : String) : listing'.versions.find? (fun r => r.name == n) =
      listing.versions.find? fun r => r.name == n := (Keyed.find?_perm versions distinct n).symm
  cases h with
  | added listed absent => exact .added ((found _).trans listed) absent
  | updated listed known mutable moved => exact .updated ((found _).trans listed) known mutable moved
  | removed full unlisted unprotected member mutable =>
    exact .removed full (fun r hr => unlisted r (versions.mem_iff.mpr hr))
      (fun named => unprotected (protect.mem_iff.mpr named)) member mutable

/-- Which changes are asked for does not depend on the order of a listing. -/
theorem mem_changes_of_perm {d d' : VersionDiff} (h : diff existing listing mode forced = .ok d)
    (h' : diff existing listing' mode forced = .ok d') (versions : listing.versions.Perm listing'.versions)
    (distinct : (listing.versions.map RemoteVersion.name).Nodup)
    (protect : listing.protectedNames.Perm listing'.protectedNames) (change : Change) :
    change ∈ d.changes ↔ change ∈ d'.changes := by
  rw [mem_changes h, mem_changes h']
  refine ⟨fun reason => reason.of_perm versions distinct protect, fun reason => ?_⟩
  exact reason.of_perm versions.symm ((versions.map _).nodup_iff.mp distinct) protect.symm

end VersionDiff

namespace Job

open Reconcile

variable {c c' : Context} {r : Remote} {repository : String} {vs vs' : List RemoteVersion}
  {survey survey' : Survey} {p : EntryPath} {name : Option String} {old : Option Entry} {t : Timestamp}

/-- Where a new entry starts from, of its sources in another order, makes no difference to the versions that are built,
if all sources state one language. -/
theorem shown_of_start {q : EntryPath} {sources others : List VersionSource} (same : sources.Perm others)
    (agreed : ∀ u ∈ sources, ∀ w ∈ sources, u.declaration.language = w.declaration.language) {before before' : Entry}
    {isNew isNew' : Bool} (start : startingPoint q old sources = some (before, isNew))
    (start' : startingPoint q old others = some (before', isNew')) {u : VersionSource} (hu : u ∈ sources) :
    (Build.version c (withSettings before sources) u).answer.map (Version.shown t before.defaultDescriptorPath) =
      (Build.version c (withSettings before' others) u).answer.map (Version.shown t before'.defaultDescriptorPath) := by
  have core := sameCore_withSettings before sources
  have core' := sameCore_withSettings before' others
  obtain ⟨known, -⟩ | ⟨fresh, -, a, rest, heads, rfl⟩ := startingPoint_eq_some start
  · obtain ⟨known', -⟩ | ⟨fresh', -⟩ := startingPoint_eq_some start'
    · obtain rfl := Option.some.inj (known.symm.trans known')
      rw [Build.version_congr (core.trans core'.symm)]
      rw [version?_withSettings, version?_withSettings]
    · exact nomatch known.symm.trans fresh'
  · obtain ⟨known', -⟩ | ⟨-, -, b, rest', heads', rfl⟩ := startingPoint_eq_some start'
    · exact nomatch fresh.symm.trans known'
    · have ha : a ∈ sources := heads ▸ List.mem_cons_self
      have hb : b ∈ sources := same.mem_iff.mpr (heads' ▸ List.mem_cons_self)
      rw [← core.defaultDescriptorPath, ← core'.defaultDescriptorPath]
      refine Build.shown_version ?_ ?_ (core.path.trans core'.path.symm) ?_ ?_
      · exact (agreed u hu a ha).trans core.language.symm
      · exact (agreed u hu b hb).trans core'.language.symm
      · exact version?_withSettings _ _ _
      · exact version?_withSettings _ _ _

/-- The jobs for one entry come to the same in whatever order its versions are listed. -/
theorem alike_of_perm (h : surveyOf r repository vs = .ok survey) (h' : surveyOf r repository vs' = .ok survey')
    (same : vs.Perm vs') (distinct : (vs.map RemoteVersion.name).Nodup)
    (agreed : ∀ u ∈ survey.sourcesOf name, ∀ w ∈ survey.sourcesOf name,
      u.declaration.language = w.declaration.language) (known : ∀ e, old = some e → e.HasDistinctNames)
    (builds : ∀ (e : Entry) (u : VersionSource) (path : String),
      (Build.version c' e u).answer.map (Version.shown t path) =
        (Build.version c e u).answer.map (Version.shown t path)) (n : String) :
    Alike (Version.shown t) n c (refreshJob p survey name) c' (refreshJob p survey' name) old := by
  have sources : (survey.sourcesOf name).Perm (survey'.sourcesOf name) := sourcesOf_perm h h' same name
  have once := nodup_remotes h distinct name
  have listed : ((survey.listingOf name).versions.map RemoteVersion.name).Nodup := by
    rw [Survey.listingOf, List.map_map]
    exact once
  have empty : survey.sourcesOf name = [] ↔ survey'.sourcesOf name = [] :=
    ⟨fun none => (none ▸ sources).symm.eq_nil, fun none => (none ▸ sources).eq_nil⟩
  refine alike_of_builds rfl rfl ?_ known ?_ ?_
  · rw [startingPoint_eq_none_iff, startingPoint_eq_none_iff]
    exact and_congr_right fun _ => empty
  · intro existing d d' compared compared' change _
    exact VersionDiff.mem_changes_of_perm compared compared' (sources.map _) listed (unreadable_perm h h' same) change
  · intro before isNew d before' isNew' d' begins begins'
    dsimp only [refreshJob] at begins begins' ⊢
    rw [map_rebuilt?, map_rebuilt?, ← Keyed.find?_perm sources once n]
    cases found : (survey.sourcesOf name).find? fun u => u.remote.name == n with
    | none => rw [Option.bind_none, Option.bind_none]
    | some u =>
      have built := shown_of_start (c := c) (t := t) sources agreed begins.start begins'.start
        (List.mem_of_find?_eq_some found)
      rw [Option.bind_some, Option.bind_some, builds, built]

end Job

namespace Reconcile

/-- A refresh comes to the same in whatever order the versions of the repository are listed. The catalog has the same
entries afterwards, and their versions are the same but for the times at which files were created; a new entry may have
another default descriptor path, but each version has the same path. The same versions are told as added, updated,
removed and skipped. All declarations of an entry have to state one language, since the first of them gives a new entry
its language; a declaration that states another language than an entry on record is refused in any order. -/
theorem listing_order_irrelevant {s : Store} (h : s.Reachable) {c : Context} (quiet : c.IsQuiet)
    (lenient : c.options.isolation = .perVersion) {repository : String} (username : String) {r : Remote}
    {vs vs' : List RemoteVersion} (files : r.file = c.world.remote.file)
    (listed : c.world.remote.list repository = .ok vs) (listed' : r.list repository = .ok vs') (same : vs.Perm vs')
    (distinct : (vs.map RemoteVersion.name).Nodup)
    (agreed : ∀ v ∈ vs, ∀ w ∈ vs, ∀ d ∈ c.world.remote.accepted repository v,
      ∀ e ∈ c.world.remote.accepted repository w, d.name = e.name → d.language = e.language) (now t : Timestamp) :
    let o := run c s (.refresh repository username)
    let o' := run ((c.withRemote r).withClock now) s (.refresh repository username)
    (∀ q, (o.store.entry? q).isSome = (o'.store.entry? q).isSome) ∧ ∀ n, Alike (fun _ => Version.shown t) n o o' := by
  have hs := h.wellFormed
  have texts (v : RemoteVersion) : r.text repository v.name Manifest.path =
      c.world.remote.text repository v.name Manifest.path := Remote.text_congr (by rw [files])
  have builds (e : Entry) (u : VersionSource) (path : String) :
      (Build.version ((c.withRemote r).withClock now) e u).answer.map (Version.shown t path) =
        (Build.version c e u).answer.map (Version.shown t path) := by
    rw [Build.shown_withClock, Build.version_withRemote fun _ => by rw [files]]
  have readable : Readable c.world.remote repository vs ↔ Readable r repository vs' := by
    unfold Readable
    simp only [texts, same.mem_iff]
  have alike (n : String) : Alike (fun _ => Version.shown t) n (run c s (.refresh repository username))
      (run ((c.withRemote r).withClock now) s (.refresh repository username)) := by
    refine alike_refresh hs quiet ((quiet.withRemote r).withClock now) lenient lenient rfl listed listed' readable ?_
    intro p survey survey' path surveyed surveyed'
    have surveyed' : surveyOf c.world.remote repository vs' = .ok survey' :=
      (surveyOf_congr fun v _ => texts v).symm.trans surveyed'
    refine ⟨mem_names_of_perm surveyed surveyed' same, fun name => ?_⟩
    refine Job.alike_of_perm surveyed surveyed' same distinct ?_ ?_ builds n
    · intro u hu w hw
      obtain ⟨hu, named⟩ := List.mem_filter.mp hu
      obtain ⟨hw, named'⟩ := List.mem_filter.mp hw
      obtain ⟨hv, declared⟩ := accepted_of_mem_survey surveyed hu
      obtain ⟨hv', declared'⟩ := accepted_of_mem_survey surveyed hw
      exact agreed _ hv _ hv' _ declared _ declared' ((beq_iff_eq.mp named).trans (beq_iff_eq.mp named').symm)
    · exact fun e found => (hs.entries.entry? found).distinct
  exact ⟨isSome_of_alike hs alike, alike⟩

/-- Listed first, the tag decides which path the new entry has as its default. The versions are the same nonetheless. -/
theorem sample_orders_agree :
    let c := Sample.snapshot.context Sample.now
    let r : Remote := ⟨fun _ => .ok [Sample.tag.listed, Sample.branch.listed], c.world.remote.file⟩
    let o := run c Sample.registered.1 Sample.refresh
    let o' := run ((c.withRemote r).withClock Sample.now) Sample.registered.1 Sample.refresh
    (o.store.entry? Sample.path).map Entry.defaultDescriptorPath = some "/m" ∧
      (o'.store.entry? Sample.path).map Entry.defaultDescriptorPath = some "/t" ∧
        ∀ n, Alike (fun _ => Version.shown Sample.now) n o o' := by
  intro c r o o'
  have quiet : c.IsQuiet := ⟨fun _ => rfl, fun _ => rfl⟩
  have agreed : ∀ v ∈ [Sample.branch.listed, Sample.tag.listed], ∀ w ∈ [Sample.branch.listed, Sample.tag.listed],
      ∀ d ∈ c.world.remote.accepted "org/repo" v, ∀ e ∈ c.world.remote.accepted "org/repo" w,
        d.name = e.name → d.language = e.language := by
    intro v hv w hw d hd e he
    obtain ⟨x, hx, rfl⟩ := List.mem_map.mp (show v ∈ [Sample.branch, Sample.tag].map SnapshotVersion.listed from hv)
    obtain ⟨y, hy, rfl⟩ := List.mem_map.mp (show w ∈ [Sample.branch, Sample.tag].map SnapshotVersion.listed from hw)
    exact Sample.consistent_snapshot.languages x hx y hy d (List.mem_filter.mp hd).1 e (List.mem_filter.mp he).1
  refine ⟨by decide +kernel, by decide +kernel, ?_⟩
  exact (listing_order_irrelevant Sample.registered.2 quiet rfl "alice" (r := r) rfl rfl rfl (.swap ..)
    (by decide +kernel) agreed Sample.now Sample.now).2

end Reconcile

end WorkflowCatalog
