import WorkflowCatalog.Proofs.FirstBuilds
import WorkflowCatalog.Proofs.Idempotence

/-!
# Versions that are added to what is there

Where the sources of a call are for versions that are not on record, nothing keeps the call from building them all. What
is at an address then shows what each source of the entry comes to when it is built for the first time, next to what it
has shown before; so it makes no difference which of them were there.
-/
namespace WorkflowCatalog

open Sync

theorem Keyed.find?_perm {α κ : Type} [DecidableEq κ] {key : α → κ} {xs ys : List α} (same : xs.Perm ys)
    (distinct : (xs.map key).Nodup) (k : κ) : xs.find? (fun x => key x == k) = ys.find? fun x => key x == k := by
  refine Option.ext fun a => ?_
  rw [Keyed.find?_eq_some_iff distinct, Keyed.find?_eq_some_iff ((same.map key).nodup_iff.mp distinct), same.mem_iff]

/-- Sources for different versions, all of which declare the same language and kind. -/
structure Compatible (sources : List VersionSource) : Prop where
  names : (sources.map fun s => s.remote.name).Nodup
  agreed : ∀ s ∈ sources, ∀ u ∈ sources,
    s.declaration.language = u.declaration.language ∧ s.declaration.kind = u.declaration.kind

theorem Compatible.sublist {sources more : List VersionSource} (h : Compatible more) (sub : sources.Sublist more) :
    Compatible sources :=
  ⟨(sub.map _).nodup h.names, fun s hs u hu => h.agreed s (sub.subset hs) u (sub.subset hu)⟩

theorem Compatible.perm {sources others : List VersionSource} (h : Compatible sources) (same : others.Perm sources) :
    Compatible others :=
  ⟨(same.map _).nodup_iff.mpr h.names, fun s hs u hu => h.agreed s (same.subset hs) u (same.subset hu)⟩

/-- What is at an address shows what comes of some sources, if there are any: an entry of the language and the kind that
all of them declare, with a version for each. -/
inductive Shows (c : Context) (t : Timestamp) (q : EntryPath) : List VersionSource → Option Entry → Prop
  | nothing : Shows c t q [] none
  | entry {sources : List VersionSource} {e : Entry} (declared : sources ≠ []) (path : e.path = q)
      (agreed : ∀ s ∈ sources, s.declaration.language = e.language ∧ s.declaration.kind = e.kind)
      (versions : ∀ n, (e.version? n).map (Version.shown t e.defaultDescriptorPath) =
        (sources.find? fun s => s.remote.name == n).bind (Build.first? c t q)) : Shows c t q sources (some e)

namespace Job

variable {c : Context} {now t : Timestamp} {j : Job} {js : List Job} {old : Option Entry}
  {r : Except SyncError Unit} {es : List Entry} {earlier : List VersionSource}

/-- A job that adds versions to those of earlier sources, and nothing keeps them from being built. -/
structure Extends (c : Context) (earlier : List VersionSource) (j : Job) : Prop where
  complete : j.listing.complete = true
  cover : j.sources.map VersionSource.remote = j.listing.versions
  keeps : j.mode = .push ∨ earlier = []
  declared : j.sources ≠ []
  compatible : Compatible (earlier ++ j.sources)
  builds : ∀ s ∈ j.sources, ∀ e : Entry, e.path = j.path → s.declaration.language = e.language →
    e.version? s.remote.name = none → ∃ v, (Build.version c e s).answer = .ok v

namespace Extends

variable (h : j.Extends c earlier)
include h

/-- Each source is the first for its version. -/
theorem source : ∀ s ∈ j.sources, j.sources.find? (fun u => u.remote.name == s.remote.name) = some s := by
  intro s hs
  have names := h.compatible.names
  rw [List.map_append] at names
  exact (Keyed.find?_eq_some_iff (List.nodup_append.mp names).2.1).mpr ⟨hs, rfl⟩

/-- No earlier source is for the same version. -/
theorem apart : ∀ s ∈ j.sources, earlier.find? (fun u => u.remote.name == s.remote.name) = none := by
  intro s hs
  have names := h.compatible.names
  rw [List.map_append] at names
  refine List.find?_eq_none.mpr fun u hu same => ?_
  exact (List.nodup_append.mp names).2.2 _ (List.mem_map_of_mem hu) _ (List.mem_map_of_mem hs) (beq_iff_eq.mp same)

end Extends

/-- If any of the changes comes to anything, then the entry is saved last as it is after all of them. -/
theorem getLast?_steps {before : Entry} {isNew : Bool} {d : VersionDiff} {change : Change} (hc : change ∈ d.changes)
    (made : saved? c j.sources (withSettings before j.sources) change ≠ none) :
    (j.steps c before isNew d).getLast? = some (reached c j.sources (withSettings before j.sources) d.changes) := by
  have left : Leaves (j.steps c before isNew d) (withSettings before j.sources)
      (reached c j.sources (withSettings before j.sources) d.changes) := leaves_steps
  obtain ⟨nothing, -⟩ | last := left
  · exact absurd (saved?_eq_none_of_trail (List.append_eq_nil_iff.mp nothing).1 change hc) made
  · exact last

section Added

variable {before : Entry} {isNew : Bool} {d : VersionDiff} (begins : j.Begins old before isNew d)
  (known : Shows c t j.path earlier old) (ext : j.Extends (c.withClock now) earlier)
include begins known ext

/-- The entry that the job starts from has the versions of the earlier sources, and is what the others declare. -/
theorem Begins.before_shows :
    before.path = j.path ∧
      (∀ s ∈ earlier ++ j.sources, s.declaration.language = before.language ∧ s.declaration.kind = before.kind) ∧
      ∀ n, (before.version? n).map (Version.shown t before.defaultDescriptorPath) =
        (earlier.find? fun s => s.remote.name == n).bind (Build.first? c t j.path) := by
  obtain ⟨rfl, -⟩ | ⟨rfl, -, u, rest, sources, rfl⟩ := startingPoint_eq_some begins.start
  · cases known with
    | entry declared path agreed versions =>
      obtain ⟨u, others, rfl⟩ := List.exists_cons_of_ne_nil declared
      have first := agreed u List.mem_cons_self
      refine ⟨path, fun s hs => ?_, versions⟩
      have same := ext.compatible.agreed s hs u (List.mem_append_left _ List.mem_cons_self)
      exact ⟨same.1.trans first.1, same.2.trans first.2⟩
  · cases known with
    | nothing =>
      have head : u ∈ [] ++ j.sources := sources ▸ List.mem_cons_self
      exact ⟨rfl, fun s hs => ext.compatible.agreed s hs u head, fun n => rfl⟩

theorem Begins.absent {n : String} (unknown : earlier.find? (fun s => s.remote.name == n) = none) :
    (withSettings before j.sources).version? n = none := by
  have nothing := (begins.before_shows known ext).2.2 n
  rw [unknown, Option.bind_none, Option.map_eq_none_iff] at nothing
  exact (version?_firstWork j before d n).trans nothing

/-- Each source is to be built as a new version. -/
theorem Begins.asked : ∀ s ∈ j.sources, .build true s.remote.name ∈ d.changes := by
  intro s hs
  have names : (j.listing.versions.map RemoteVersion.name).Nodup := by
    have all := ext.compatible.names
    rw [List.map_append] at all
    rw [← ext.cover, List.map_map]
    exact (List.nodup_append.mp all).2.1
  have listed : s.remote ∈ j.listing.versions := ext.cover ▸ List.mem_map_of_mem hs
  have first : j.listing.versions.find? (fun r => r.name == s.remote.name) = some s.remote :=
    (Keyed.find?_eq_some_iff names).mpr ⟨listed, rfl⟩
  exact (VersionDiff.mem_changes begins.compared).mpr (.added first (begins.absent known ext (ext.apart s hs)))

/-- Only versions of the sources are to be changed. -/
theorem Begins.named : ∀ change ∈ d.changes, ∃ s ∈ j.sources, s.remote.name = change.name := by
  intro change hc
  have source {r : RemoteVersion} (listed : j.listing.versions.find? (fun u => u.name == r.name) = some r) :
      ∃ s ∈ j.sources, s.remote.name = r.name := by
    have member := List.mem_of_find?_eq_some listed
    rw [← ext.cover] at member
    obtain ⟨s, hs, rfl⟩ := List.mem_map.mp member
    exact ⟨s, hs, rfl⟩
  cases (VersionDiff.mem_changes begins.compared).mp hc with
  | added listed => exact source listed
  | updated listed => exact source listed
  | @removed v full _ _ member _ =>
    obtain push | nothing := ext.keeps
    · exact nomatch push.symm.trans full
    · have absent := begins.absent known ext (n := v.name) (by rw [nothing, List.find?_nil])
      exact absurd rfl (Entry.version?_eq_none_iff.mp absent v member)

/-- Each source is built, and comes to what is shown of it. -/
theorem Begins.built {s : VersionSource} (hs : s ∈ j.sources) : ∃ v,
    rebuilt? (c.withClock now) j.sources (withSettings before j.sources) s.remote.name = some (.ok v) ∧
      Build.first? c t j.path s = some (v.shown t before.defaultDescriptorPath) := by
  obtain ⟨path, agreed, -⟩ := begins.before_shows known ext
  have core := sameCore_withSettings before j.sources
  have language : s.declaration.language = (withSettings before j.sources).language :=
    (agreed s (List.mem_append_right _ hs)).1.trans core.language.symm
  have fresh := begins.absent known ext (ext.apart s hs)
  obtain ⟨v, answer⟩ := ext.builds s hs _ (core.path.trans path) language fresh
  have shown := Build.first?_of_answer (t := t) language fresh answer
  rw [core.path, path, core.defaultDescriptorPath] at shown
  refine ⟨v, ?_, shown⟩
  rw [rebuilt?, ext.source s hs, Option.map_some, answer]

/-- After all changes the entry has the versions of the earlier sources and of those of the job. -/
theorem Begins.after_shows (distinct : before.HasDistinctNames) (n : String) :
    ((reached (c.withClock now) j.sources (withSettings before j.sources) d.changes).version? n).map
        (Version.shown t before.defaultDescriptorPath) =
      ((earlier ++ j.sources).find? fun s => s.remote.name == n).bind (Build.first? c t j.path) := by
  have first : (withSettings before j.sources).HasDistinctNames := distinct_firstWork (j := j) (d := d) distinct
  rw [List.find?_append]
  cases found : j.sources.find? fun s => s.remote.name == n with
  | some s =>
    obtain rfl : s.remote.name = n := by simpa using List.find?_some found
    have hs := List.mem_of_find?_eq_some found
    obtain ⟨v, made, shown⟩ := begins.built known ext hs
    have version : (reached (c.withClock now) j.sources (withSettings before j.sources) d.changes).version?
        s.remote.name = some v := by
      rw [← Change.name_build true s.remote.name, version?_reached_of_mem first
        (VersionDiff.nodup_changes begins.compared first) (begins.asked known ext s hs), after_build, made]
      rfl
    rw [version, ext.apart s hs, Option.none_or, Option.bind_some, shown, Option.map_some]
  | none =>
    have other : n ∉ d.changes.map Change.name := by
      intro hn
      obtain ⟨change, hc, rfl⟩ := List.mem_map.mp hn
      obtain ⟨s, hs, same⟩ := begins.named known ext change hc
      exact List.find?_eq_none.mp found s hs (beq_iff_eq.mpr same)
    have kept := version?_firstWork j before d n
    rw [firstWork] at kept
    rw [version?_reached_of_not_mem first other, kept, (begins.before_shows known ext).2.2, Option.or_none]

end Added

/-- A job that adds versions is done, and what is at its address then shows the earlier sources and its own. -/
theorem Ran.shows (h : j.Ran (c.withClock now) old r es) (quiet : c.IsQuiet)
    (lenient : c.options.isolation = .perVersion) (read : c.world.lookupFault .entry = none)
    (distinct : ∀ e, old = some e → e.HasDistinctNames) (known : Shows c t j.path earlier old)
    (ext : j.Extends (c.withClock now) earlier) :
    r = .ok () ∧ Shows c t j.path (earlier ++ j.sources) (es.getLast?.or old) := by
  obtain ⟨u, rest, sources⟩ := List.exists_cons_of_ne_nil ext.declared
  have hu : u ∈ j.sources := sources ▸ List.mem_cons_self
  have start : startingPoint j.path old j.sources ≠ none := by
    rw [sources]
    cases old <;> exact Option.some_ne_none _
  obtain ⟨before, isNew, d, begins, ⟨rfl, -, rfl⟩ | ⟨-, _, _, _, -, halts, -⟩⟩ :=
    h.begun (quiet.withClock now) read start ext.complete
  case inr => cases halts.1.symm.trans lenient
  obtain ⟨path, agreed, -⟩ := begins.before_shows known ext
  have saved : (j.steps (c.withClock now) before isNew d).getLast? =
      some (reached (c.withClock now) j.sources (withSettings before j.sources) d.changes) := by
    obtain ⟨v, made, -⟩ := begins.built known ext hu
    refine getLast?_steps (begins.asked known ext u hu) ?_
    rw [saved?, made]
    exact Option.some_ne_none _
  have core : (reached (c.withClock now) j.sources (withSettings before j.sources) d.changes).SameCore before :=
    (core_reached _ _).trans (sameCore_withSettings before j.sources)
  rw [saved, Option.some_or]
  refine ⟨rfl, .entry (List.append_ne_nil_of_right_ne_nil _ ext.declared) (core.path.trans path) ?_ ?_⟩
  · rw [core.language, core.kind]
    exact agreed
  · rw [core.defaultDescriptorPath]
    exact begins.after_shows known ext (begins.distinct distinct)

section Catalog

variable {s : Store} (quiet : c.IsQuiet) (lenient : c.options.isolation = .perVersion)
  (read : c.world.lookupFault .entry = none) (hs : s.WellFormed)
include quiet lenient read hs

/-- A job that adds versions leaves what is shown at other addresses. -/
theorem Ran.shows_saved (h : j.Ran (c.withClock now) (s.entry? j.path) r es) (plain : j.path.IsPlain)
    {earlier : EntryPath → List VersionSource} (known : ∀ q, Shows c t q (earlier q) (s.entry? q))
    (ext : j.Extends (c.withClock now) (earlier j.path)) (q : EntryPath) :
    Shows c t q (earlier q ++ if j.path = q then j.sources else []) (Store.entry? (es.foldl Store.save s) q) := by
  have saved := h.wellFormed hs plain
  by_cases here : j.path = q
  · subst here
    rw [if_pos rfl, hs.entry?_saves_at (fun f hf => (saved f hf).1) fun f hf => (saved f hf).2]
    exact (h.shows quiet lenient read (fun e found => (hs.entries.entry? found).distinct) (known j.path) ext).2
  · have elsewhere : ∀ f ∈ es, f.path ≠ q := fun f hf same => here ((saved f hf).2.symm.trans same)
    rw [if_neg here, List.append_nil, hs.entry?_saves_elsewhere (fun f hf => (saved f hf).1) elsewhere]
    exact known q

/-- Jobs that add versions at different addresses are all done, and each address then shows what it did and the sources
of its job. -/
theorem Runs.shows (h : Runs (c.withClock now) js s r es) (plain : ∀ j ∈ js, j.path.IsPlain)
    (distinct : (js.map Job.path).Nodup) {earlier : EntryPath → List VersionSource}
    (known : ∀ q, Shows c t q (earlier q) (s.entry? q)) (ext : ∀ j ∈ js, j.Extends (c.withClock now) (earlier j.path))
    (q : EntryPath) :
    Shows c t q (earlier q ++ (js.filter fun j => j.path = q).flatMap Job.sources)
      (Store.entry? (es.foldl Store.save s) q) := by
  induction h generalizing earlier with
  | nil =>
    rw [List.filter_nil, List.flatMap_nil, List.append_nil]
    exact known q
  | @cons j js s _ es _ first _ ih =>
    rw [List.forall_mem_cons] at plain ext
    rw [List.map_cons, List.nodup_cons] at distinct
    have saved := first.wellFormed hs plain.1
    have next := first.shows_saved quiet lenient read hs plain.1 known ext.1
    have extends_next : ∀ k ∈ js,
        k.Extends (c.withClock now) (earlier k.path ++ if j.path = k.path then j.sources else []) := by
      intro k hk
      have other : j.path ≠ k.path := fun same => distinct.1 (same ▸ List.mem_map_of_mem hk)
      rw [if_neg other, List.append_nil]
      exact ext.2 k hk
    have all := ih (hs.saves (Store.saves_foldl (fun f hf => (saved f hf).1) s)) plain.2 distinct.2 next extends_next
    rw [List.foldl_append, List.filter_cons]
    by_cases here : j.path = q <;> simpa [here] using all
  | @stop j _ s _ _ first =>
    rw [List.forall_mem_cons] at ext
    have done := (first.shows quiet lenient read (fun e found => (hs.entries.entry? found).distinct)
      (known j.path) ext.1).1
    exact nomatch done

end Catalog

end Job

namespace Reconcile

/-! ## Calls -/

/-- The sources of the entry at an address of a repository. -/
def sourcesAt (p q : EntryPath) (sources : List VersionSource) : List VersionSource :=
  sources.filter fun s => { p with name := s.declaration.name } = q

variable {c : Context} {now t : Timestamp} {s : Store} {call : Call} {p q : EntryPath}

@[simp] theorem sourcesAt_append (sources more : List VersionSource) :
    sourcesAt p q (sources ++ more) = sourcesAt p q sources ++ sourcesAt p q more := List.filter_append ..

theorem sourcesAt_pushJobs (p q : EntryPath) (text : String) (v : RemoteVersion) (ds : List Declaration) :
    ((pushJobs p text v ds).filter fun j => j.path = q).flatMap Job.sources =
      sourcesAt p q ((ds.filter fun d => d.filters.accepts v.referenceType v.name).map fun d => ⟨v, d, text⟩) := by
  simp only [pushJobs, sourcesAt, List.filter_map, List.flatMap_map]
  rw [← List.flatMap_pure_eq_map]
  rfl

theorem withName_inj {m n : Option String} :
    ({ p with name := m } : EntryPath) = { p with name := n } ↔ m = n := by
  cases p
  simp

theorem sourcesAt_survey (p : EntryPath) (survey : Survey) (name : Option String) :
    sourcesAt p { p with name := name } survey.sources = survey.sourcesOf name := by
  refine List.filter_congr fun s _ => ?_
  simp only [withName_inj]
  exact Bool.eq_iff_iff.mpr (by simp)

/-- An address is that of some name, or no source is for it. -/
theorem sourcesAt_cases (p q : EntryPath) :
    (∃ name, q = { p with name := name }) ∨
      (∀ name, ({ p with name := name } : EntryPath) ≠ q) ∧ ∀ sources, sourcesAt p q sources = [] := by
  by_cases near : ∃ name, q = { p with name := name }
  · exact .inl near
  · have other (name : Option String) : ({ p with name := name } : EntryPath) ≠ q := fun same => near ⟨name, same.symm⟩
    exact .inr ⟨other, fun sources => List.filter_eq_nil_iff.mpr fun s _ => by simpa using other s.declaration.name⟩

/-- Where no entries are on record, a refresh has a job for each address with sources, and for no other. -/
theorem sourcesAt_refreshJobs (p q : EntryPath) (survey : Survey) :
    ((refreshJobs p survey (survey.names [])).filter fun j => j.path = q).flatMap Job.sources =
      sourcesAt p q survey.sources := by
  obtain ⟨name, rfl⟩ | ⟨other, sources⟩ := sourcesAt_cases p q
  · have jobs : (refreshJobs p survey (survey.names [])).filter (fun j => j.path = { p with name := name }) =
        ((survey.names []).filter (· = name)).map (refreshJob p survey) := by
      simp only [refreshJobs, List.filter_map, Function.comp_def, refreshJob, withName_inj]
    rw [jobs, sourcesAt_survey, List.filter_eq, (Survey.nodup_names survey []).count]
    by_cases declared : name ∈ survey.names []
    · rw [if_pos declared]
      exact List.append_nil _
    · have unlisted : survey.sourcesOf name = [] := by
        refine List.filter_eq_nil_iff.mpr fun s hs named => ?_
        exact declared (Survey.mem_names.mpr (.inl ⟨s, hs, beq_iff_eq.mp named⟩))
      rw [if_neg declared, unlisted]
      rfl
  · rw [sources]
    simp [refreshJobs, refreshJob, List.filter_map, Function.comp_def, other]

/-- A call with jobs that add versions does all of them. -/
theorem shows_run (quiet : c.IsQuiet) (lenient : c.options.isolation = .perVersion)
    (read : c.world.lookupFault .entry = none) (hs : s.WellFormed) {js : List Job}
    (planned : plan (c.withClock now) s call = .ok (.jobs js)) {earlier : EntryPath → List VersionSource}
    (shows : ∀ q, Shows c t q (earlier q) (s.entry? q))
    (ext : ∀ j ∈ js, j.Extends (c.withClock now) (earlier j.path)) (q : EntryPath) :
    Shows c t q (earlier q ++ (js.filter fun j => j.path = q).flatMap Job.sources)
      (Store.entry? (run (c.withClock now) s call).store q) := by
  have saved := saved_run (c.withClock now) s call
  have jobs := Reconcile.planned planned
  rw [store_run]
  generalize (run (c.withClock now) s call).log.saves = es at saved
  cases saved with
  | nothing refused => exact nomatch planned.symm.trans refused
  | acted same ran =>
    obtain rfl := Except.ok.inj (planned.symm.trans same)
    cases ran with
    | jobs runs => exact runs.shows quiet lenient read hs jobs.plain_jobs jobs.distinct_jobs shows ext q

theorem saves_of_refused {e : SyncError} (refused : plan c s call = .error e) : (run c s call).log.saves = [] := by
  have saved := saved_run c s call
  generalize (run c s call).log.saves = es at saved
  cases saved with
  | nothing => rfl
  | acted planned => exact nomatch refused.symm.trans planned

theorem store_of_refused {e : SyncError} (refused : plan c s call = .error e) : (run c s call).store = s := by
  rw [store_run, saves_of_refused refused]
  rfl

theorem Planned.repository {a : Agenda} (h : Planned c s call a) : ∃ p, repositoryPath call.repository = .ok p := by
  cases h with
  | push _ _ repository => exact ⟨_, repository⟩
  | delete _ _ repository => exact ⟨_, repository⟩
  | refresh path => exact ⟨_, path⟩
  | refreshVersion path => exact ⟨_, path⟩

/-- Nothing is done for a repository that has no address. -/
theorem store_of_no_address {e : SyncError} (call : Call) (nowhere : repositoryPath call.repository = .error e) :
    (run c s call).store = s := by
  cases found : plan c s call with
  | error err => exact store_of_refused found
  | ok a =>
    obtain ⟨p, somewhere⟩ := (planned found).repository
    exact nomatch nowhere.symm.trans somewhere

theorem checkedUser_eq_ok (read : c.world.lookupFault .user = none) {username : String}
    (known : s.hasUser username = true) : checkedUser c s username = .ok () := by
  simp only [checkedUser, lookedUp, read, known]
  rfl

end Reconcile

end WorkflowCatalog
