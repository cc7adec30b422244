import WorkflowCatalog.Proofs.Clock
import WorkflowCatalog.Proofs.Mirrors
import WorkflowCatalog.Proofs.Trails

/-!
# Calls that are interrupted

What a call saves if nothing disturbs it is settled by the remote and the catalog. A call that is cancelled, that
cannot save, or that gives up at a version which cannot be built, saves a first part of that and no more. Since a
version is saved as a whole, no interruption leaves half of one.
-/
namespace WorkflowCatalog

open Sync

/-- The same call if nothing disturbs it: it is not cancelled, no save fails, and a version that cannot be built does
not stop it. -/
def Context.undisturbed (c : Context) : Context :=
  { c with
    world := { c.world with cancelled := fun _ => false, saveFault := fun _ => none }
    options := { c.options with isolation := .perVersion } }

theorem Context.isQuiet_undisturbed (c : Context) : c.undisturbed.IsQuiet := ⟨fun _ => rfl, fun _ => rfl⟩

theorem Context.IsQuiet.withClock {c : Context} (h : c.IsQuiet) (t : Timestamp) : (c.withClock t).IsQuiet :=
  ⟨h.lasting, h.saving⟩

/-- A build goes by the remote and takes no notice of disturbances. -/
theorem Build.version_undisturbed (c : Context) (e : Entry) (s : VersionSource) :
    version c.undisturbed e s = version c e s := by
  have tests (repository reference : String) (type : FileType) (paths : List String) (checks : List Validation) :
      testFiles c.undisturbed repository reference type paths checks =
        testFiles c repository reference type paths checks := by
    induction paths generalizing checks with
    | nil => rfl
    | cons path paths ih =>
      simp only [testFiles, ih]
      rfl
  unfold version revise collect gather parameterFiles
  simp only [tests]
  rfl

/-! ## What is saved if nothing disturbs the call -/

namespace Job

/-- All that is saved for an entry. -/
def script (c : Context) (j : Job) (old : Option Entry) : List Entry :=
  match startingPoint j.path old j.sources with
  | none => []
  | some (before, isNew) =>
    match diff (withSettings before j.sources).versions j.listing j.mode j.forced with
    | .error _ => []
    | .ok d => j.steps c before isNew d

/-- All that is saved for several entries. -/
def scripts (c : Context) : List Job → Store → List Entry
  | [], _ => []
  | j :: js, s =>
    j.script c (s.entry? j.path) ++ scripts c js ((j.script c (s.entry? j.path)).foldl Store.save s)

variable {c : Context} {j : Job} {old : Option Entry} {r : Except SyncError Unit} {es : List Entry}

theorem script_eq_steps {before : Entry} {isNew : Bool} {d : VersionDiff} (begins : j.Begins old before isNew d) :
    j.script c old = j.steps c before isNew d := by
  simp only [script, begins.start, begins.compared]

/-- A job saves a first part of what it would, and all of it if it comes to its end. -/
theorem Ran.prefix_script (h : j.Ran c old r es) : es <+: j.script c old ∧ (r = .ok () → es = j.script c old) := by
  cases h with
  | unread => exact ⟨List.nil_prefix, nofun⟩
  | undeclared _ absent =>
    have idle : j.script c old = [] := by rw [script, absent]
    exact ⟨List.nil_prefix, fun _ => idle.symm⟩
  | refused => exact ⟨List.nil_prefix, nofun⟩
  | stopped _ begins changes =>
    refine ⟨?_, nofun⟩
    rw [script_eq_steps begins, steps, changes, trail_append, List.append_assoc]
    exact List.prefix_append _ _
  | unfinished _ begins _ =>
    refine ⟨?_, nofun⟩
    rw [script_eq_steps begins, steps]
    exact List.prefix_append _ _
  | finished _ begins _ =>
    rw [script_eq_steps begins]
    exact ⟨List.prefix_refl _, fun _ => rfl⟩

theorem Runs.prefix_scripts {js : List Job} {s : Store} (h : Runs c js s r es) : es <+: scripts c js s := by
  induction h with
  | nil => exact List.prefix_refl _
  | cons first _ ih =>
    obtain rfl := first.prefix_script.2 rfl
    exact (List.prefix_append_right_inj _).mpr ih
  | stop first => exact first.prefix_script.1.trans (List.prefix_append _ _)

/-- Without disturbance a job that can read the catalog comes to its end. -/
theorem Ran.eq_script (h : j.Ran c old r es) (quiet : c.IsQuiet) (lenient : c.options.isolation = .perVersion)
    (read : c.world.lookupFault .entry = none) (complete : j.listing.complete = true) :
    r = .ok () ∧ es = j.script c old := by
  by_cases start : startingPoint j.path old j.sources = none
  · cases h with
    | unread fault => exact nomatch fault.symm.trans read
    | undeclared =>
      have idle : j.script c old = [] := by rw [script, start]
      exact ⟨rfl, idle.symm⟩
    | refused _ found _ => exact nomatch start.symm.trans found
    | stopped _ begins => exact nomatch start.symm.trans begins.start
    | unfinished _ begins => exact nomatch start.symm.trans begins.start
    | finished _ begins => exact nomatch start.symm.trans begins.start
  · obtain ⟨before, isNew, d, begins, ⟨rfl, -, rfl⟩ | ⟨-, _, _, _, -, halts, -⟩⟩ := h.begun quiet read start complete
    · exact ⟨rfl, (script_eq_steps begins).symm⟩
    · exact nomatch halts.1.symm.trans lenient

theorem Runs.eq_scripts {js : List Job} {s : Store} (h : Runs c js s r es) (quiet : c.IsQuiet)
    (lenient : c.options.isolation = .perVersion) (read : c.world.lookupFault .entry = none)
    (complete : ∀ j ∈ js, j.listing.complete = true) : es = scripts c js s := by
  induction h with
  | nil => rfl
  | cons first _ ih =>
    rw [List.forall_mem_cons] at complete
    obtain ⟨-, rfl⟩ := first.eq_script quiet lenient read complete.1
    rw [ih complete.2, scripts]
  | stop first => exact nomatch (first.eq_script quiet lenient read (List.forall_mem_cons.mp complete).1).1

/-- Where the catalog cannot be read, nothing is saved. -/
theorem Runs.eq_nil_of_fault {js : List Job} {s : Store} (h : Runs c js s r es) {err : SyncError}
    (fault : c.world.lookupFault .entry = some err) : es = [] := by
  cases h with
  | nil => rfl
  | cons first _ =>
    cases first with
    | undeclared read _ => exact nomatch fault.symm.trans read
    | finished read _ _ => exact nomatch fault.symm.trans read
  | stop first =>
    cases first with
    | unread => rfl
    | refused => rfl
    | stopped read => exact nomatch fault.symm.trans read
    | unfinished read _ _ => exact nomatch fault.symm.trans read

end Job

/-! ## At another time -/

section Stamped

variable {c : Context} {sources : List VersionSource} {t : Timestamp}

theorem Sync.rebuilt?_stamped (e : Entry) (name : String) :
    rebuilt? (c.withClock t) sources (e.stamped t) name =
      (rebuilt? c sources e name).map (Except.map (Version.stamped t)) := by
  unfold rebuilt?
  cases sources.find? fun s => s.remote.name == name with
  | none => rfl
  | some s => exact congrArg some (Build.version_stamped c e s)

theorem Sync.saved?_stamped (e : Entry) (change : Change) :
    saved? (c.withClock t) sources (e.stamped t) change = (saved? c sources e change).map (Entry.stamped t) := by
  cases change with
  | remove name => exact congrArg some (Entry.stamped_remove e name).symm
  | build isNew name =>
    rw [saved?, saved?, rebuilt?_stamped]
    cases rebuilt? c sources e name with
    | none => rfl
    | some r =>
      cases r with
      | error err => rfl
      | ok v => exact congrArg some (Entry.stamped_upsert e v).symm

theorem Sync.reached_stamped (e : Entry) (done : List Change) :
    reached (c.withClock t) sources (e.stamped t) done = (reached c sources e done).stamped t := by
  induction done generalizing e with
  | nil => rfl
  | cons change done ih =>
    change reached _ _ ((saved? (c.withClock t) sources (e.stamped t) change).getD (e.stamped t)) done = _
    rw [saved?_stamped, Option.getD_map, ih]
    rfl

theorem Sync.trail_stamped (e : Entry) (changes : List Change) :
    trail (c.withClock t) sources (e.stamped t) changes = (trail c sources e changes).map (Entry.stamped t) := by
  induction changes generalizing e with
  | nil => rfl
  | cons change changes ih =>
    rw [trail_cons, trail_cons, saved?_stamped, Option.getD_map, ih, List.map_append]
    cases saved? c sources e change <;> rfl

namespace Job

theorem steps_stamped (j : Job) (before : Entry) (isNew : Bool) (d : VersionDiff) :
    j.steps (c.withClock t) (before.stamped t) isNew d = (j.steps c before isNew d).map (Entry.stamped t) := by
  have unsaved : decide (withSettings (before.stamped t) j.sources ≠ before.stamped t) =
      decide (withSettings before j.sources ≠ before) :=
    decide_eq_decide.mpr (not_congr (withSettings_stamped_eq_iff before j.sources))
  simp only [steps, closing_progress, firstWork, unsaved]
  rw [← stamped_withSettings, trail_stamped, reached_stamped, List.map_append, List.isEmpty_map]
  change _ ++ (if _ && _ && !(isNew && (((reached c j.sources (withSettings before j.sources) d.changes).versions.map
    (Version.stamped t)).isEmpty)) then _ else _) = _
  rw [List.isEmpty_map]
  congr 1
  split <;> rfl

theorem startingPoint_stamped (p : EntryPath) (old : Option Entry) (sources : List VersionSource) :
    startingPoint p (old.map (Entry.stamped t)) sources =
      (startingPoint p old sources).map fun b => (b.1.stamped t, b.2) := by
  cases old with
  | some e => rfl
  | none => cases sources <;> rfl

theorem script_stamped (j : Job) (old : Option Entry) :
    j.script (c.withClock t) (old.map (Entry.stamped t)) = (j.script c old).map (Entry.stamped t) := by
  unfold script
  rw [startingPoint_stamped]
  cases startingPoint j.path old j.sources with
  | none => rfl
  | some begun =>
    obtain ⟨before, isNew⟩ := begun
    simp only [Option.map_some, ← stamped_withSettings]
    rw [show ((withSettings before j.sources).stamped t).versions =
      (withSettings before j.sources).versions.map (Version.stamped t) from rfl, diff_stamped]
    cases diff (withSettings before j.sources).versions j.listing j.mode j.forced with
    | error err => rfl
    | ok d => exact steps_stamped j before isNew d

theorem stamped_saves (s : Store) (es : List Entry) :
    (es.foldl Store.save s).stamped t = (es.map (Entry.stamped t)).foldl Store.save (s.stamped t) := by
  induction es generalizing s with
  | nil => rfl
  | cons e es ih => rw [List.foldl_cons, ih, Store.stamped_save, List.map_cons, List.foldl_cons]

theorem scripts_stamped (js : List Job) (s : Store) :
    scripts (c.withClock t) js (s.stamped t) = (scripts c js s).map (Entry.stamped t) := by
  induction js generalizing s with
  | nil => rfl
  | cons j js ih =>
    rw [scripts, Store.entry?_stamped, script_stamped, ← stamped_saves, ih, scripts, List.map_append]

end Job

end Stamped

theorem Job.scripts_undisturbed (c : Context) (js : List Job) (s : Store) :
    scripts c.undisturbed js s = scripts c js s := by
  have changed (sources : List VersionSource) (e : Entry) (change : Change) :
      saved? c.undisturbed sources e change = saved? c sources e change := by
    simp only [saved?, rebuilt?, Build.version_undisturbed]
  have trails (sources : List VersionSource) (e : Entry) (changes : List Change) :
      trail c.undisturbed sources e changes = trail c sources e changes := by
    induction changes generalizing e with
    | nil => rfl
    | cons change changes ih => simp only [trail_cons, changed, ih]
  have same (j : Job) (old : Option Entry) : j.script c.undisturbed old = j.script c old := by
    simp only [script, steps, closing_progress, trails, reached, changed]
    rfl
  induction js generalizing s with
  | nil => rfl
  | cons j js ih => simp only [scripts, same, ih]

namespace Deletes

variable {c : Context} {name : String} {entries : List Entry} {r : Except SyncError Unit} {es : List Entry}

theorem prefix_cuts (h : Deletes c name entries r es) : es <+: entries.filterMap (Entry.without? name) := by
  induction h with
  | nil => exact List.prefix_refl _
  | @cons e _ _ _ _ ih =>
    rw [List.filterMap_cons]
    cases e.without? name with
    | none => exact ih
    | some f => exact (List.prefix_cons_inj f).mpr ih
  | failed => exact List.nil_prefix

/-- A deletion is not cancelled, so it gets through if no save fails. -/
theorem eq_cuts_of_saving (h : Deletes c name entries r es) (saving : ∀ log, c.world.saveFault log = none) :
    es = entries.filterMap (Entry.without? name) := by
  induction h with
  | nil => rfl
  | @cons e _ _ _ _ ih =>
    rw [List.filterMap_cons, ← ih]
    cases e.without? name <;> rfl
  | failed fault => exact nomatch fault.symm.trans (saving _)

theorem eq_cuts (h : Deletes c name entries r es) (quiet : c.IsQuiet) :
    es = entries.filterMap (Entry.without? name) := h.eq_cuts_of_saving quiet.saving

end Deletes

namespace Reconcile

/-- What there is to be done is read from the remote and the catalog alone. -/
theorem plan_undisturbed (c : Context) (now : Timestamp) (s : Store) (call : Call) :
    plan (c.undisturbed.withClock now) s call = plan c s call := by
  cases call <;> rfl

theorem Saved.prefix_undisturbed {c : Context} {s : Store} {call : Call} {es fs : List Entry} {now : Timestamp}
    (h : Saved c s call es) (k : Saved (c.undisturbed.withClock now) s call fs) (t : Timestamp) :
    es.map (Entry.stamped t) <+: fs.map (Entry.stamped t) := by
  have quiet : (c.undisturbed.withClock now).IsQuiet := c.isQuiet_undisturbed.withClock now
  cases h with
  | nothing => exact List.nil_prefix
  | acted planned ran =>
    cases k with
    | nothing refused =>
      rw [plan_undisturbed, planned] at refused
      exact nomatch refused
    | acted same undisturbed =>
      rw [plan_undisturbed, planned] at same
      obtain rfl := Except.ok.inj same
      cases ran with
      | deletion deletes =>
        cases undisturbed with
        | deletion all =>
          obtain rfl := all.eq_cuts quiet
          exact deletes.prefix_cuts.map _
      | @jobs js _ _ _ runs =>
        cases undisturbed with
        | jobs all =>
          cases read : c.world.lookupFault .entry with
          | some err =>
            obtain rfl := runs.eq_nil_of_fault read
            exact List.nil_prefix
          | none =>
            obtain rfl := all.eq_scripts quiet rfl read (Reconcile.planned planned).complete_jobs
            have same : (Job.scripts (c.undisturbed.withClock now) js s).map (Entry.stamped t) =
                (Job.scripts c js s).map (Entry.stamped t) := by
              rw [← Job.scripts_stamped, ← Job.scripts_stamped]
              exact Job.scripts_undisturbed (c.withClock t) js (s.stamped t)
            rw [same]
            exact runs.prefix_scripts.map _

end Reconcile

/-! ## Versions are saved as a whole -/

/-- The call has rebuilt a version of the entry, with all that one build comes to. -/
def Call.Rebuilds (c : Context) (call : Call) (f : Entry) (v : Version) : Prop :=
  ∃ e source files checks, e.SameCore f ∧ call.Finds c f.path.name v.name source ∧
    Build.IsBuilt c e source v files checks

/-- The version is one that the entry had before the call, or one that the call has rebuilt. -/
def Call.Accepts (c : Context) (call : Call) (s : Store) (f : Entry) (v : Version) : Prop :=
  (∃ e ∈ s.entries, f.SameCore e ∧ v ∈ e.versions) ∨ call.Rebuilds c f v

/-- No version is half-done, and an entry that is new has a version. -/
structure Entry.Whole (c : Context) (call : Call) (s : Store) (f : Entry) : Prop where
  versions : ∀ v ∈ f.versions, call.Accepts c s f v
  known : f.versions = [] → ∃ e ∈ s.entries, f.SameCore e

section Whole

variable {c : Context} {call : Call} {s : Store}

theorem Call.Accepts.of_core {e f : Entry} {v : Version} (h : call.Accepts c s e v) (core : e.SameCore f) :
    call.Accepts c s f v := by
  rcases h with ⟨g, hg, same, hv⟩ | ⟨g, source, files, checks, same, finds, built⟩
  · exact .inl ⟨g, hg, core.symm.trans same, hv⟩
  · exact .inr ⟨g, source, files, checks, same.trans core, core.path ▸ finds, built⟩

theorem Entry.whole_of_mem {e : Entry} (h : e ∈ s.entries) : e.Whole c call s :=
  ⟨fun _ hv => .inl ⟨e, h, .refl e, hv⟩, fun _ => ⟨e, h, .refl e⟩⟩

namespace Job

variable {j : Job} {old : Option Entry}

/-- What is saved for a change has the versions of before, and perhaps a rebuilt one. -/
theorem accepts_of_saved (finds : ∀ n source, j.sources.find? (fun s => s.remote.name == n) = some source →
    call.Finds c j.path.name n source) {e f : Entry} {change : Change} (path : e.path = j.path)
    (he : ∀ v ∈ e.versions, call.Accepts c s e v) (saved : saved? c j.sources e change = some f) :
    f.SameCore e ∧ ∀ v ∈ f.versions, call.Accepts c s f v := by
  cases change with
  | remove name =>
    obtain rfl := Option.some.inj saved
    have core : (e.remove name).SameCore e := ⟨rfl, rfl, rfl, rfl, rfl⟩
    exact ⟨core, fun v hv => (he v (List.mem_of_mem_eraseP hv)).of_core core.symm⟩
  | build isNew name =>
    obtain ⟨v, hv, rfl⟩ := Option.map_eq_some_iff.mp saved
    obtain ⟨r, rebuilt, ok⟩ := Option.bind_eq_some_iff.mp hv
    cases r with
    | error err => exact nomatch ok
    | ok w =>
      obtain rfl := Option.some.inj ok
      obtain ⟨source, found, named, answer⟩ := source_of_rebuilt? rebuilt
      obtain ⟨files, checks, built⟩ := Build.isBuilt_of_answer answer
      have core : (e.upsert w).SameCore e := ⟨rfl, rfl, rfl, rfl, rfl⟩
      refine ⟨core, fun u hu => ?_⟩
      rcases Keyed.mem_of_mem_upsert hu with rfl | hu
      · have finds : call.Finds c e.path.name u.name source := by
          rw [path, name_of_rebuilt? rebuilt]
          exact finds name source found
        exact .inr ⟨e, source, files, checks, core.symm, finds, built⟩
      · exact (he u hu).of_core core.symm

/-- A change to an entry without versions leaves it with one. -/
theorem versions_ne_nil_of_saved {before : Entry} {isNew : Bool} {d : VersionDiff} (begins : j.Begins old before isNew d)
    (empty : before.versions = []) {e f : Entry} {change : Change} (hc : change ∈ d.changes)
    (saved : saved? c j.sources e change = some f) : f.versions ≠ [] := by
  cases change with
  | remove name =>
    generalize asked : Change.remove name = change at hc
    cases (VersionDiff.mem_changes begins.compared).mp hc with
    | added => exact nomatch asked
    | updated => exact nomatch asked
    | removed _ _ _ member _ =>
      have versions : (withSettings before j.sources).versions = before.versions := versions_firstWork j before d
      rw [versions, empty] at member
      exact absurd member List.not_mem_nil
  | build isNew name =>
    obtain ⟨v, -, rfl⟩ := Option.map_eq_some_iff.mp saved
    exact List.ne_nil_of_mem (Keyed.mem_upsert_self Version.name v e.versions)

theorem Ran.whole {r : Except SyncError Unit} {es : List Entry} (h : j.Ran c old r es)
    (finds : ∀ n source, j.sources.find? (fun s => s.remote.name == n) = some source → call.Finds c j.path.name n source)
    (hold : ∀ e, old = some e → e.path = j.path ∧ e ∈ s.entries) : ∀ f ∈ es, f.path = j.path ∧ f.Whole c call s := by
  intro f hf
  obtain ⟨before, isNew, d, begins, hf⟩ := h.mem hf
  have path : before.path = j.path := begins.path fun e found => (hold e found).1
  have settings := sameCore_withSettings before j.sources
  have versions : (withSettings before j.sources).versions = before.versions := versions_firstWork j before d
  have first : ∀ v ∈ (withSettings before j.sources).versions, call.Accepts c s (withSettings before j.sources) v := by
    rw [versions]
    obtain ⟨found, -⟩ | ⟨-, -, source, _, -, rfl⟩ := startingPoint_eq_some begins.start
    · exact fun v hv => .inl ⟨before, (hold before found).2, settings, hv⟩
    · exact fun v hv => absurd hv List.not_mem_nil
  have step : ∀ e change f, change ∈ d.changes → (e.SameCore before ∧ ∀ v ∈ e.versions, call.Accepts c s e v) →
      saved? c j.sources e change = some f → f.SameCore before ∧ ∀ v ∈ f.versions, call.Accepts c s f v := by
    intro e change f _ he saved
    obtain ⟨core, accepts⟩ := accepts_of_saved finds (he.1.path.trans path) he.2 saved
    exact ⟨core.trans he.1, accepts⟩
  obtain ⟨last, members⟩ := mem_trail step ⟨settings, first⟩
  have kept : f.SameCore before ∧ ∀ v ∈ f.versions, call.Accepts c s f v := by
    rcases hf with hf | ⟨rfl, -⟩
    · exact (members f hf).1
    · exact last
  refine ⟨kept.1.path.trans path, kept.2, fun empty => ?_⟩
  obtain ⟨found, -⟩ | ⟨-, new, source, _, -, fresh⟩ := startingPoint_eq_some begins.start
  · exact ⟨before, (hold before found).2, kept.1⟩
  · -- A new entry is saved for a version, and its settings are not saved without one.
    rcases hf with hf | ⟨-, guarded⟩
    · obtain ⟨-, e, -, change, hc, saved⟩ := members f hf
      exact absurd empty (versions_ne_nil_of_saved begins (by rw [fresh]; rfl) hc saved)
    · rw [new, empty] at guarded
      exact nomatch guarded

/-- Jobs for different entries, none of which has been touched before, save whole versions only. -/
theorem Runs.whole {js : List Job} {u : Store} {r : Except SyncError Unit} {es : List Entry} (h : Runs c js u r es)
    (finds : ∀ j ∈ js, ∀ n source, j.sources.find? (fun s => s.remote.name == n) = some source →
      call.Finds c j.path.name n source)
    (distinct : (js.map Job.path).Nodup)
    (untouched : ∀ j ∈ js, ∀ e ∈ u.entries, e.path = j.path → e ∈ s.entries) : ∀ f ∈ es, f.Whole c call s := by
  have touched {u : Store} {p : EntryPath} (e : Entry) (found : u.entry? p = some e)
      (untouched : ∀ e ∈ u.entries, e.path = p → e ∈ s.entries) : e.path = p ∧ e ∈ s.entries := by
    have path : e.path = p := by simpa using List.find?_some found
    exact ⟨path, untouched e (List.mem_of_find?_eq_some found) path⟩
  induction h with
  | nil => exact fun f hf => absurd hf List.not_mem_nil
  | @cons j js u _ es _ first _ ih =>
    rw [List.forall_mem_cons] at finds untouched
    rw [List.map_cons, List.nodup_cons] at distinct
    have whole := first.whole finds.1 (fun e found => touched e found untouched.1)
    refine List.forall_mem_append.mpr ⟨fun f hf => (whole f hf).2, ih finds.2 distinct.2 fun k hk e he path => ?_⟩
    obtain he | he := Store.mem_entries_saves he
    · exact untouched.2 k hk e he path
    · exact absurd (path.symm.trans (whole e he).1) fun same => distinct.1 (same ▸ List.mem_map_of_mem hk)
  | stop first =>
    exact fun f hf => (first.whole (List.forall_mem_cons.mp finds).1
      (fun e found => touched e found (List.forall_mem_cons.mp untouched).1) f hf).2

end Job

theorem Deletes.whole {name : String} {entries : List Entry} {r : Except SyncError Unit} {es : List Entry}
    (h : Deletes c name entries r es) (known : ∀ e ∈ entries, e ∈ s.entries) : ∀ f ∈ es, f.Whole c call s := by
  intro f hf
  obtain ⟨e, he, cut⟩ := List.mem_filterMap.mp (h.prefix_cuts.subset hf)
  have lost : f = e.remove name := Entry.eq_of_without? cut
  have core : f.SameCore e := lost ▸ ⟨rfl, rfl, rfl, rfl, rfl⟩
  refine ⟨fun v hv => .inl ⟨e, known e he, core, ?_⟩, fun _ => ⟨e, known e he, core⟩⟩
  rw [lost] at hv
  exact List.mem_of_mem_eraseP hv

theorem Reconcile.Saved.whole {es : List Entry} (h : Saved c s call es) : ∀ f ∈ es, f.Whole c call s := by
  cases h with
  | nothing => exact fun f hf => absurd hf List.not_mem_nil
  | acted plan ran =>
    have planned := planned plan
    cases ran with
    | jobs runs =>
      exact runs.whole (fun j hj n source found => planned.finds hj found) planned.distinct_jobs fun _ _ _ he _ => he
    | deletion deletes =>
      refine deletes.whole fun e he => ?_
      cases planned with
      | delete _ _ _ => exact (List.mem_filter.mp he).1

end Whole

namespace Reconcile

/-- A call that is interrupted saves a first part of what it saves if nothing disturbs it, apart from the times at which
files are created. The catalog is what was saved by then, so at all times each version is as it was before the call,
rebuilt as a whole, or gone, and an entry that is new has a version that was rebuilt. -/
theorem interrupted_saves_prefix (c : Context) (s : Store) (call : Call) (now t : Timestamp) :
    (run c s call).log.saves.map (Entry.stamped t) <+:
        (run (c.undisturbed.withClock now) s call).log.saves.map (Entry.stamped t) ∧
      (run c s call).store = (run c s call).log.saves.foldl Store.save s ∧
      ∀ earlier, earlier <+: (run c s call).log.saves →
        ∀ f ∈ (earlier.foldl Store.save s).entries, f.Whole c call s := by
  have saved := saved_run c s call
  refine ⟨saved.prefix_undisturbed (saved_run (c.undisturbed.withClock now) s call) t, store_run c s call, ?_⟩
  intro earlier first f hf
  rcases Store.mem_entries_saves hf with hf | hf
  · exact Entry.whole_of_mem hf
  · exact saved.whole f (first.subset hf)

end Reconcile

end WorkflowCatalog
