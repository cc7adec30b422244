import WorkflowCatalog.Proofs.Idempotence

/-!
# What an undisturbed call tells and leaves

A call that is not disturbed, and that goes on after a version that cannot be built, comes to the end of all its jobs.
Each job tells and leaves what can be told from the entry on record alone, so two calls can be compared one name at a
time: `Job.Alike` says that two jobs come to the same for the versions of one name, whatever they do to others, and
`Reported.alike` that the calls do so if their jobs do.
-/
namespace WorkflowCatalog

open Pass Sync

/-- What a result can tell of a version. -/
inductive Mention | added | updated | removed | skipped
deriving DecidableEq, Repr

/-- The names of which a result tells that. -/
def SyncResult.mentions (x : SyncResult) : Mention → List String
  | .added => x.added
  | .updated => x.updated
  | .removed => x.removed
  | .skipped => x.skippedFrozen

/-- A result for the entry tells that of the name. -/
def Outcome.Tells (o : Outcome) (q : EntryPath) (k : Mention) (n : String) : Prop :=
  ∃ x ∈ o.results, x.entry = some q.toText ∧ n ∈ x.mentions k

instance (o : Outcome) (q : EntryPath) (k : Mention) (n : String) : Decidable (o.Tells q k n) :=
  inferInstanceAs (Decidable (∃ x ∈ o.results, x.entry = some q.toText ∧ n ∈ x.mentions k))

namespace Sync

variable {c : Context} {sources : List VersionSource}

/-- Settings are no matter of the versions. -/
theorem version?_withSettings (e : Entry) (sources : List VersionSource) (n : String) :
    (withSettings e sources).version? n = e.version? n := by
  cases sources <;> rfl

theorem startingPoint_eq_none_iff {p : EntryPath} {old : Option Entry} :
    startingPoint p old sources = none ↔ old = none ∧ sources = [] := by
  cases old with
  | some e => exact ⟨nofun, fun none => nomatch none.1⟩
  | none => cases sources <;> simp [startingPoint]

theorem bind_toOption_eq_some_iff {r : Option (Except SyncError Version)} {v : Version} :
    r.bind Except.toOption = some v ↔ r = some (.ok v) := by
  cases r with
  | none => simp
  | some r => cases r <;> simp [Except.toOption]

theorem skippedFrozen_progress (w : Work) (done : List Change) :
    (progress c sources w done).result.skippedFrozen = w.result.skippedFrozen := by
  refine progress_induction (P := fun x => x.result.skippedFrozen = w.result.skippedFrozen)
    (fun x _ y _ step h => ?_) rfl
  cases step with
  | skipped same => exact same.skippedFrozen.trans h
  | @built isNew _ _ _ _ _ => cases isNew <;> exact h
  | removed => exact h

/-- Without disturbance all changes are made. -/
theorem exec_applyAll_of_quiet (quiet : c.IsQuiet) (lenient : c.options.isolation = .perVersion) (w : Work)
    (changes : List Change) (p : Progress) :
    ∃ q, exec (applyAll c sources w changes) p = (.ok (progress c sources w changes), q) ∧ q.results = p.results := by
  obtain ⟨q, ⟨hx, -, -⟩ | ⟨err, done, change, rest, hx, -, -, -, stops⟩⟩ := wrote_applyAll c sources w changes p
  · obtain ⟨t, ⟨kx, results, -⟩ | ⟨err, done, r, kx, -⟩⟩ := exec_applyAll c sources w changes p
    · obtain rfl := (Prod.mk.inj (hx.symm.trans kx)).2
      exact ⟨q, hx, results⟩
    · exact nomatch (Prod.mk.inj (hx.symm.trans kx)).1
  · exact nomatch (stops.halts quiet).1.symm.trans lenient

theorem exec_finish_of_quiet (quiet : c.IsQuiet) (isNew : Bool) (w : Work) (p : Progress) :
    ∃ q, exec (finish c isNew w) p = (.ok (), q) ∧ q.results = p.results ++ [w.result] := by
  obtain ⟨q, ⟨hx, -⟩ | ⟨err, log, hx, -, fault⟩⟩ := wrote_finish c isNew w p
  · obtain ⟨t, ⟨kx, results, -⟩ | ⟨err, kx, -⟩⟩ := Job.exec_finish c isNew w p
    · obtain rfl := (Prod.mk.inj (hx.symm.trans kx)).2
      exact ⟨q, hx, results⟩
    · exact nomatch (Prod.mk.inj (hx.symm.trans kx)).1
  · exact nomatch fault.symm.trans (quiet.saving log)

end Sync

namespace Job

/-- What a job tells if nothing disturbs it, given the entry on record. -/
def report (c : Context) (j : Job) (old : Option Entry) : Option SyncResult :=
  match startingPoint j.path old j.sources with
  | none => none
  | some (before, _) =>
    match diff (withSettings before j.sources).versions j.listing j.mode j.forced with
    | .error _ => none
    | .ok d =>
      if d.isEmpty ∧ withSettings before j.sources = before ∧ d.frozen = [] then none
      else some (progress c j.sources (j.firstWork before d) d.changes).result

/-- The entry that a job leaves if nothing disturbs it, given the entry on record. -/
def left (c : Context) (j : Job) (old : Option Entry) : Option Entry := (j.script c old).getLast?.or old

variable {c : Context} {j : Job} {js : List Job} {old : Option Entry} {before : Entry} {isNew : Bool} {d : VersionDiff}

section Saves

variable {s : Store} {r : Except SyncError Unit} {es : List Entry} (h : j.Ran c (s.entry? j.path) r es)
  (hs : s.WellFormed) (plain : j.path.IsPlain)
include h hs plain

/-- However a job ends, its entry is as it was saved last. -/
theorem Ran.entry?_saves : Store.entry? (es.foldl Store.save s) j.path = es.getLast?.or (s.entry? j.path) :=
  hs.entry?_saves_at (fun f hf => (h.wellFormed hs plain f hf).1) fun f hf => (h.wellFormed hs plain f hf).2

theorem Ran.entry?_saves_elsewhere {q : EntryPath} (other : j.path ≠ q) :
    Store.entry? (es.foldl Store.save s) q = s.entry? q :=
  hs.entry?_saves_elsewhere (fun f hf => (h.wellFormed hs plain f hf).1) fun f hf =>
    (h.wellFormed hs plain f hf).2 ▸ other

theorem Ran.wellFormed_saves : (es.foldl Store.save s).WellFormed :=
  hs.saves (Store.saves_foldl (fun f hf => (h.wellFormed hs plain f hf).1) s)

end Saves

theorem report_of_begins (begins : j.Begins old before isNew d) : j.report c old =
    if d.isEmpty ∧ withSettings before j.sources = before ∧ d.frozen = [] then none
    else some (progress c j.sources (j.firstWork before d) d.changes).result := by
  simp only [report, begins.start, begins.compared]

theorem entry_report {x : SyncResult} (h : j.report c old = some x) : x.entry = some j.path.toText := by
  unfold report at h
  split at h
  · exact nomatch h
  · split at h
    · exact nomatch h
    · split at h
      · exact nomatch h
      · exact Option.some.inj h ▸ entry_progress _ _

section Quiet

variable (quiet : c.IsQuiet) (lenient : c.options.isolation = .perVersion)
  (read : c.world.lookupFault .entry = none)
include quiet lenient read

theorem told_run (complete : j.listing.complete = true) (p : Progress) :
    ∃ r q, exec (j.run c) p = (r, q) ∧ q.results = p.results ++ (j.report c (p.store.entry? j.path)).toList := by
  unfold run Sync.entry
  rw [exec_bind_ok (show exec (look c .entry fun s => s.entry? j.path) p = (.ok _, p) by rw [exec_look, read])]
  cases hs : startingPoint j.path (p.store.entry? j.path) j.sources with
  | none =>
    have silent : j.report c (p.store.entry? j.path) = none := by rw [report, hs]
    exact ⟨_, p, rfl, by rw [silent, Option.toList_none, List.append_nil]⟩
  | some begun =>
    obtain ⟨before, isNew⟩ := begun
    obtain ⟨d, hd⟩ := diff_of_complete complete (withSettings before j.sources).versions j.mode j.forced
    rw [report_of_begins ⟨hs, hd⟩]
    simp only [hd]
    split
    · rename_i idle
      simp only [Bool.and_eq_true, Bool.not_eq_true', decide_eq_false_iff_not, Decidable.not_not] at idle
      rw [changes_of_isEmpty idle.1, progress_nil]
      split
      · rename_i free
        rw [if_pos ⟨idle.1, idle.2, List.isEmpty_iff.mp free⟩]
        exact ⟨_, p, rfl, (List.append_nil _).symm⟩
      · rename_i frozen
        rw [if_neg fun none => frozen (List.isEmpty_iff.mpr none.2.2)]
        exact ⟨_, _, exec_push _ _, rfl⟩
    · rename_i busy
      have told : ¬ (d.isEmpty = true ∧ withSettings before j.sources = before ∧ d.frozen = []) :=
        fun none => busy (by simp [none.1, none.2.1])
      rw [if_neg told]
      obtain ⟨q, hx, results⟩ := exec_applyAll_of_quiet quiet lenient (j.firstWork before d) d.changes p
      obtain ⟨t, kx, more⟩ := exec_finish_of_quiet quiet isNew (progress c j.sources (j.firstWork before d) d.changes) q
      exact ⟨_, t, (exec_bind_ok hx _).trans kx, more.trans (by rw [results]; rfl)⟩

/-- Without disturbance a job comes to its end, and what it saves and tells is known beforehand. -/
theorem exec_run_of_quiet (complete : j.listing.complete = true) (p : Progress) :
    ∃ q, exec (j.run c) p = (.ok (), q) ∧ q.results = p.results ++ (j.report c (p.store.entry? j.path)).toList ∧
      q.store = (j.script c (p.store.entry? j.path)).foldl Store.save p.store ∧
      j.Ran c (p.store.entry? j.path) (.ok ()) (j.script c (p.store.entry? j.path)) := by
  obtain ⟨r, q, es, hx, wrote, ran⟩ := wrote_run c j p
  obtain ⟨rfl, rfl⟩ := ran.eq_script quiet lenient read complete
  obtain ⟨r, t, kx, results⟩ := told_run quiet lenient read complete p
  obtain rfl := (Prod.mk.inj (hx.symm.trans kx)).2
  exact ⟨q, hx, results, wrote.store, ran⟩

/-- Jobs for different entries do not see each other, so each tells and leaves what it would on its own. -/
theorem exec_runAll_of_quiet (plain : ∀ j ∈ js, j.path.IsPlain) (distinct : (js.map Job.path).Nodup)
    (complete : ∀ j ∈ js, j.listing.complete = true) (p : Progress) (hs : p.store.WellFormed) :
    ∃ q, exec (runAll c js) p = (.ok (), q) ∧
      q.results = p.results ++ js.filterMap (fun j => j.report c (p.store.entry? j.path)) ∧
      (∀ j ∈ js, q.store.entry? j.path = j.left c (p.store.entry? j.path)) ∧
      ∀ path, (∀ j ∈ js, j.path ≠ path) → q.store.entry? path = p.store.entry? path := by
  induction js generalizing p with
  | nil => exact ⟨p, rfl, (List.append_nil _).symm, nofun, fun _ _ => rfl⟩
  | cons j js ih =>
    rw [List.forall_mem_cons] at plain complete
    rw [List.map_cons, List.nodup_cons] at distinct
    obtain ⟨q, hx, results, store, ran⟩ := exec_run_of_quiet quiet lenient read complete.1 p
    have here : q.store.entry? j.path = j.left c (p.store.entry? j.path) := by
      rw [store, ran.entry?_saves hs plain.1, left]
    have elsewhere {path : EntryPath} (other : j.path ≠ path) : q.store.entry? path = p.store.entry? path := by
      rw [store, ran.entry?_saves_elsewhere hs plain.1 other]
    have hq : q.store.WellFormed := store ▸ ran.wellFormed_saves hs plain.1
    obtain ⟨t, kx, more, others, untouched⟩ := ih plain.2 distinct.2 complete.2 q hq
    have apart : ∀ k ∈ js, j.path ≠ k.path := fun k hk same => distinct.1 (same ▸ List.mem_map_of_mem hk)
    refine ⟨t, (exec_bind_ok hx _).trans kx, ?_, ?_, fun path other => ?_⟩
    · have same : js.filterMap (fun k => k.report c (q.store.entry? k.path)) =
          js.filterMap fun k => k.report c (p.store.entry? k.path) :=
        List.filterMap_congr fun k hk => by rw [elsewhere (apart k hk)]
      rw [more, results, same, List.filterMap_cons, List.append_assoc]
      cases j.report c (p.store.entry? j.path) <;> rfl
    · refine List.forall_mem_cons.mpr ⟨(untouched j.path fun k hk => (apart k hk).symm).trans here, fun k hk => ?_⟩
      rw [others k hk, elsewhere (apart k hk)]
    · rw [List.forall_mem_cons] at other
      rw [untouched path other.2, elsewhere other.1]

end Quiet

/-- A job cannot begin where entries cannot be looked up. -/
theorem exec_runAll_of_fault {err : SyncError} (fault : c.world.lookupFault .entry = some err) (js : List Job)
    (p : Progress) : ∃ r, exec (runAll c js) p = (r, p) := by
  cases js with
  | nil => exact ⟨_, rfl⟩
  | cons j js =>
    have stopped : exec (j.run c) p = (.error err, p) := by
      unfold run Sync.entry
      rw [exec_bind_error (show exec (look c .entry fun s => s.entry? j.path) p = (.error err, p) by
        rw [exec_look, fault])]
    exact ⟨_, exec_bind_error stopped _⟩

/-! ## One name at a time -/

/-- A job tells of the versions that were built or removed, and of those that are frozen. -/
theorem mem_mentions_report (begins : j.Begins old before isNew d) (distinct : before.HasDistinctNames) {k : Mention}
    {n : String} : (∃ x, j.report c old = some x ∧ n ∈ x.mentions k) ↔
      match k with
      | .added => .build true n ∈ d.changes ∧
          ((rebuilt? c j.sources (withSettings before j.sources) n).bind Except.toOption).isSome = true
      | .updated => .build false n ∈ d.changes ∧
          ((rebuilt? c j.sources (withSettings before j.sources) n).bind Except.toOption).isSome = true
      | .removed => .remove n ∈ d.changes
      | .skipped => n ∈ d.frozen := by
  have first : (j.firstWork before d).entry.HasDistinctNames := distinct_firstWork distinct
  have names := VersionDiff.nodup_changes begins.compared first
  -- A job that tells nothing has made no change and skips nothing.
  have told : (∃ x, j.report c old = some x ∧ n ∈ x.mentions k) ↔
      n ∈ (progress c j.sources (j.firstWork before d) d.changes).result.mentions k := by
    rw [report_of_begins begins]
    split
    · rename_i idle
      rw [changes_of_isEmpty idle.1, progress_nil, firstWork, idle.2.2]
      cases k <;> simp [SyncResult.mentions, SyncResult.forEntry, SyncResult.nothing]
    · simp
  -- Nothing is told before the first change.
  have untold (isNew : Bool) : Sync.told isNew (j.firstWork before d).result = [] := by cases isNew <;> rfl
  have made (isNew : Bool) : n ∈ Sync.told isNew (progress c j.sources (j.firstWork before d) d.changes).result ↔
      .build isNew n ∈ d.changes ∧
        ((rebuilt? c j.sources (withSettings before j.sources) n).bind Except.toOption).isSome = true := by
    rw [mem_told_progress first names, untold, Option.isSome_iff_exists]
    simp only [bind_toOption_eq_some_iff]
    exact or_iff_right List.not_mem_nil
  rw [told]
  cases k with
  | added => exact made true
  | updated => exact made false
  | removed => exact mem_removed_progress.trans (or_iff_right List.not_mem_nil)
  | skipped =>
    change n ∈ (progress c j.sources (j.firstWork before d) d.changes).result.skippedFrozen ↔ _
    rw [skippedFrozen_progress]
    rfl

end Job

/-- The version of that name in the entry, if there is one, as `view` shows it. The view may depend on the default
descriptor path of the entry. -/
def Reconcile.viewOf {α : Type} (view : String → Version → α) (n : String) (e : Option Entry) : Option α :=
  e.bind fun e => (e.version? n).map (view e.defaultDescriptorPath)

namespace Job

open Reconcile

variable {α : Type} {view : String → Version → α} {n : String} {c c' : Context} {j j' : Job} {old : Option Entry}

theorem viewOf_of_begins {before : Entry} {isNew : Bool} {d : VersionDiff} (begins : j.Begins old before isNew d) :
    viewOf view n old = (before.version? n).map (view before.defaultDescriptorPath) := by
  obtain ⟨rfl, -⟩ | ⟨rfl, -, s, _, -, rfl⟩ := startingPoint_eq_some begins.start <;> rfl

theorem viewOf_left {before : Entry} {isNew : Bool} {d : VersionDiff} (begins : j.Begins old before isNew d) :
    viewOf view n (j.left c old) =
      ((reached c j.sources (withSettings before j.sources) d.changes).version? n).map
        (view before.defaultDescriptorPath) := by
  rw [left, script_eq_steps begins]
  have leaves : Leaves (j.steps c before isNew d) (withSettings before j.sources)
      (reached c j.sources (withSettings before j.sources) d.changes) := leaves_steps
  obtain ⟨none, same⟩ | last := leaves
  · rw [none, List.getLast?_nil, Option.none_or, viewOf_of_begins begins, same, version?_withSettings]
  · have core : (reached c j.sources (withSettings before j.sources) d.changes).SameCore before :=
      (core_reached _ d.changes).trans (sameCore_withSettings before j.sources)
    rw [last, Option.some_or, ← core.defaultDescriptorPath]
    rfl

/-- Two jobs come to the same for the versions of that name. -/
structure Alike (view : String → Version → α) (n : String) (c : Context) (j : Job) (c' : Context) (j' : Job)
    (old : Option Entry) : Prop where
  left : viewOf view n (j.left c old) = viewOf view n (j'.left c' old)
  told : ∀ k, (∃ x, j.report c old = some x ∧ n ∈ x.mentions k) ↔ ∃ x, j'.report c' old = some x ∧ n ∈ x.mentions k

/-- Where the same is to be done for a name, and what is built for it looks the same, two jobs come to the same. -/
theorem alike_of_begins {before before' : Entry} {isNew isNew' : Bool} {d d' : VersionDiff}
    (begins : j.Begins old before isNew d) (begins' : j'.Begins old before' isNew' d')
    (distinct : ∀ e, old = some e → e.HasDistinctNames)
    (asked : ∀ change : Change, change.name = n → (change ∈ d.changes ↔ change ∈ d'.changes))
    (built : ((rebuilt? c j.sources (withSettings before j.sources) n).bind Except.toOption).map
        (view before.defaultDescriptorPath) =
      ((rebuilt? c' j'.sources (withSettings before' j'.sources) n).bind Except.toOption).map
        (view before'.defaultDescriptorPath)) : Alike view n c j c' j' old := by
  have first : (withSettings before j.sources).HasDistinctNames :=
    distinct_firstWork (j := j) (d := d) (begins.distinct distinct)
  have first' : (withSettings before' j'.sources).HasDistinctNames :=
    distinct_firstWork (j := j') (d := d') (begins'.distinct distinct)
  have kept : (before.version? n).map (view before.defaultDescriptorPath) =
      (before'.version? n).map (view before'.defaultDescriptorPath) := by
    rw [← viewOf_of_begins begins, ← viewOf_of_begins begins']
  refine ⟨?_, fun k => ?_⟩
  · rw [viewOf_left begins, viewOf_left begins']
    by_cases concerned : ∃ change ∈ d.changes, change.name = n
    · obtain ⟨change, hc, rfl⟩ := concerned
      rw [version?_reached_of_mem first (VersionDiff.nodup_changes begins.compared first) hc,
        version?_reached_of_mem first' (VersionDiff.nodup_changes begins'.compared first') ((asked change rfl).mp hc)]
      cases change with
      | remove name => rfl
      | build isNew name =>
        rw [Change.name_build] at built kept
        rw [after_build, after_build, Option.map_or, Option.map_or, version?_withSettings, version?_withSettings, built,
          kept]
    · have unconcerned : n ∉ d.changes.map Change.name := fun named =>
        concerned (by simpa only [List.mem_map] using named)
      have unconcerned' : n ∉ d'.changes.map Change.name := fun named => by
        obtain ⟨change, hc, same⟩ := List.mem_map.mp named
        exact concerned ⟨change, (asked change same).mpr hc, same⟩
      rw [version?_reached_of_not_mem first unconcerned, version?_reached_of_not_mem first' unconcerned',
        version?_withSettings, version?_withSettings, kept]
  · have some_built := congrArg Option.isSome built
    rw [Option.isSome_map, Option.isSome_map] at some_built
    rw [mem_mentions_report begins (begins.distinct distinct), mem_mentions_report begins' (begins'.distinct distinct)]
    cases k with
    | added => simp only [some_built, asked (.build true n) rfl]
    | updated => simp only [some_built, asked (.build false n) rfl]
    | removed => exact asked (.remove n) rfl
    | skipped =>
      -- What is skipped is frozen on record, in whatever order the listing comes.
      rw [VersionDiff.mem_frozen begins.compared first, VersionDiff.mem_frozen begins'.compared first']
      change (∃ v, (withSettings before j.sources).version? n = some v ∧ _) ↔
        ∃ v, (withSettings before' j'.sources).version? n = some v ∧ _
      rw [version?_withSettings, version?_withSettings, begins.version? n, begins'.version? n]

theorem alike_of_undeclared (absent : startingPoint j.path old j.sources = none)
    (absent' : startingPoint j'.path old j'.sources = none) : Alike view n c j c' j' old := by
  have silent : j.report c old = none := by rw [report, absent]
  have silent' : j'.report c' old = none := by rw [report, absent']
  have untouched : j.left c old = old := by rw [Job.left, script, absent]; rfl
  have untouched' : j'.left c' old = old := by rw [Job.left, script, absent']; rfl
  exact ⟨by rw [untouched, untouched'], fun k => by rw [silent, silent']⟩

/-- Two jobs come to the same for a name if both have an entry to work on or neither, the same is to be done for the
name, and what is built for it looks the same. -/
theorem alike_of_builds (complete : j.listing.complete = true) (complete' : j'.listing.complete = true)
    (starts : startingPoint j.path old j.sources = none ↔ startingPoint j'.path old j'.sources = none)
    (distinct : ∀ e, old = some e → e.HasDistinctNames)
    (asked : ∀ vs d d', diff vs j.listing j.mode j.forced = .ok d → diff vs j'.listing j'.mode j'.forced = .ok d' →
      ∀ change : Change, change.name = n → (change ∈ d.changes ↔ change ∈ d'.changes))
    (built : ∀ before isNew d before' isNew' d', j.Begins old before isNew d → j'.Begins old before' isNew' d' →
      ((rebuilt? c j.sources (withSettings before j.sources) n).bind Except.toOption).map
          (view before.defaultDescriptorPath) =
        ((rebuilt? c' j'.sources (withSettings before' j'.sources) n).bind Except.toOption).map
          (view before'.defaultDescriptorPath)) : Alike view n c j c' j' old := by
  cases start : startingPoint j.path old j.sources with
  | none => exact alike_of_undeclared start (starts.mp start)
  | some begun =>
    obtain ⟨before, isNew⟩ := begun
    cases start' : startingPoint j'.path old j'.sources with
    | none => exact nomatch start.symm.trans (starts.mpr start')
    | some begun' =>
      obtain ⟨before', isNew'⟩ := begun'
      obtain ⟨d, compared⟩ := diff_of_complete complete (withSettings before j.sources).versions j.mode j.forced
      obtain ⟨d', compared'⟩ := diff_of_complete complete' (withSettings before' j'.sources).versions j'.mode j'.forced
      have begins : j.Begins old before isNew d := ⟨start, compared⟩
      have begins' : j'.Begins old before' isNew' d' := ⟨start', compared'⟩
      have versions : (withSettings before j.sources).versions = (withSettings before' j'.sources).versions := by
        have first : (withSettings before j.sources).versions = before.versions := versions_firstWork j before d
        have first' : (withSettings before' j'.sources).versions = before'.versions := versions_firstWork j' before' d'
        rw [first, first', ← begins.versionsOf, ← begins'.versionsOf]
      refine alike_of_begins begins begins' distinct ?_ (built before isNew d before' isNew' d' begins begins')
      exact asked _ d d' compared (versions ▸ compared')

end Job

/-! ## Calls -/

namespace Reconcile

variable {c c' : Context} {s : Store} {call : Call} {js : List Job} {o o' : Outcome}

/-- A call has come to the end of all its jobs: each has told and left what it would on its own. -/
structure Reported (c : Context) (s : Store) (js : List Job) (o : Outcome) : Prop where
  results : o.results = closed (.ok ()) (js.filterMap fun j => j.report c (s.entry? j.path))
  left : ∀ j ∈ js, o.store.entry? j.path = j.left c (s.entry? j.path)
  others : ∀ q, (∀ j ∈ js, j.path ≠ q) → o.store.entry? q = s.entry? q

theorem reported_run (hs : s.WellFormed) (quiet : c.IsQuiet) (lenient : c.options.isolation = .perVersion)
    (read : c.world.lookupFault .entry = none) (plan : plan c s call = .ok (.jobs js)) :
    Reported c s js (run c s call) := by
  have planned := planned plan
  obtain ⟨q, reads, hx⟩ := performs_pass c call ⟨s, [], []⟩
  have same : q.store = s := reads.store
  obtain ⟨t, kx, results, left, others⟩ := Job.exec_runAll_of_quiet quiet lenient read planned.plain_jobs
    planned.distinct_jobs planned.complete_jobs q (same ▸ hs)
  simp only [plan] at hx
  obtain ⟨store, told⟩ := run_of_exec (hx.trans kx)
  rw [same] at results left others
  refine ⟨?_, fun j hj => by rw [store, left j hj], fun q other => by rw [store, others q other]⟩
  rw [told, results, reads.results]
  rfl

theorem Reported.tells_iff (h : Reported c s js o) {q : EntryPath} {k : Mention} {n : String} :
    o.Tells q k n ↔ ∃ j ∈ js, j.path.toText = q.toText ∧
      ∃ x, j.report c (s.entry? j.path) = some x ∧ n ∈ x.mentions k := by
  constructor
  · rintro ⟨x, hx, named, told⟩
    rw [h.results] at hx
    obtain ⟨j, hj, report⟩ := List.mem_filterMap.mp (entry_of_mem_closed hx named)
    exact ⟨j, hj, Option.some.inj ((Job.entry_report report).symm.trans named), x, report, told⟩
  · rintro ⟨j, hj, named, x, report, told⟩
    refine ⟨x, ?_, (Job.entry_report report).trans (congrArg some named), told⟩
    rw [h.results]
    exact mem_closed_of_mem _ (List.mem_filterMap.mpr ⟨j, hj, report⟩)

/-- A call that changes nothing and tells of no version. -/
structure Idle (s : Store) (o : Outcome) : Prop where
  store : o.store = s
  silent : ∀ q k n, ¬ o.Tells q k n

theorem idle_of_closed {r : Except SyncError Unit} (store : o.store = s) (results : o.results = closed r []) :
    Idle s o := by
  refine ⟨store, fun q k n ⟨x, hx, named, _⟩ => ?_⟩
  rw [results] at hx
  exact List.not_mem_nil (entry_of_mem_closed hx named)

theorem idle_of_refused {err : SyncError} (plan : plan c s call = .error err) : Idle s (run c s call) := by
  cases ends_run c s call with
  | acted planned => exact nomatch plan.symm.trans planned
  | refused _ store results => exact idle_of_closed store results

/-- Where entries cannot be looked up, nothing is done for them. -/
theorem unread_run {err : SyncError} (fault : c.world.lookupFault .entry = some err)
    (plan : plan c s call = .ok (.jobs js)) :
    (run c s call).store = s ∧ ∃ r, (run c s call).results = closed r [] := by
  obtain ⟨q, reads, hx⟩ := performs_pass c call ⟨s, [], []⟩
  obtain ⟨r, kx⟩ := Job.exec_runAll_of_fault fault js q
  simp only [plan] at hx
  obtain ⟨store, results⟩ := run_of_exec (hx.trans kx)
  rw [reads.results] at results
  exact ⟨store.trans reads.store, r, results⟩

theorem idle_of_unread {err : SyncError} (fault : c.world.lookupFault .entry = some err)
    (plan : plan c s call = .ok (.jobs js)) : Idle s (run c s call) := by
  obtain ⟨store, r, results⟩ := unread_run fault plan
  exact idle_of_closed store results

variable {α : Type} {view : EntryPath → String → Version → α} {n : String}

/-- Two calls come to the same for the versions of that name, as each entry shows them. -/
structure Alike (view : EntryPath → String → Version → α) (n : String) (o o' : Outcome) : Prop where
  shown : ∀ q, viewOf (view q) n (o.store.entry? q) = viewOf (view q) n (o'.store.entry? q)
  told : ∀ q k, o.Tells q k n ↔ o'.Tells q k n

theorem Idle.alike (h : Idle s o) (h' : Idle s o') : Alike view n o o' :=
  ⟨fun q => by rw [h.store, h'.store], fun q k => iff_of_false (h.silent q k n) (h'.silent q k n)⟩

/-- Two refreshes come to the same for a name if they do for each entry. -/
theorem Reported.alike {p : EntryPath} {survey survey' : Survey} {names names' : List (Option String)}
    (h : Reported c s (refreshJobs p survey names) o) (h' : Reported c' s (refreshJobs p survey' names') o')
    (same : ∀ name, name ∈ names ↔ name ∈ names')
    (alike : ∀ name ∈ names, Job.Alike (view { p with name := name }) n c (refreshJob p survey name) c'
      (refreshJob p survey' name) (s.entry? { p with name := name })) : Alike view n o o' := by
  refine ⟨fun q => ?_, fun q k => ?_⟩
  · by_cases known : ∃ name ∈ names, { p with name := name } = q
    · obtain ⟨name, hn, rfl⟩ := known
      have left := h.left (refreshJob p survey name) (List.mem_map_of_mem hn)
      have left' := h'.left (refreshJob p survey' name) (List.mem_map_of_mem ((same name).mp hn))
      have alike := (alike name hn).left
      dsimp only [refreshJob] at left left' alike
      rw [left, left', alike]
    · rw [h.others q, h'.others q]
      · rintro _ hj path
        obtain ⟨name, hn, rfl⟩ := List.mem_map.mp hj
        exact known ⟨name, (same name).mpr hn, path⟩
      · rintro _ hj path
        obtain ⟨name, hn, rfl⟩ := List.mem_map.mp hj
        exact known ⟨name, hn, path⟩
  · rw [h.tells_iff, h'.tells_iff]
    constructor
    · rintro ⟨_, hj, named, told⟩
      obtain ⟨name, hn, rfl⟩ := List.mem_map.mp hj
      exact ⟨_, List.mem_map_of_mem ((same name).mp hn), named, ((alike name hn).told k).mp told⟩
    · rintro ⟨_, hj, named, told⟩
      obtain ⟨name, hn, rfl⟩ := List.mem_map.mp hj
      have hn := (same name).mpr hn
      exact ⟨_, List.mem_map_of_mem hn, named, ((alike name hn).told k).mpr told⟩

/-- An entry on record stays. -/
theorem isSome_run (hs : s.WellFormed) (c : Context) (call : Call) {q : EntryPath}
    (known : (s.entry? q).isSome = true) :
    ((run c s call).store.entry? q).isSome = true := by
  have turn := turn_run hs c call q
  generalize (run c s call).store.entry? q = new at turn
  cases turn with
  | same => exact known
  | @worked _ _ _ last => cases last with
    | none => exact known
    | some e => rfl
  | cut => rfl

/-- An entry that is new has a version. -/
theorem version_of_fresh (hs : s.WellFormed) {q : EntryPath} (fresh : s.entry? q = none) {f : Entry}
    (found : (run c s call).store.entry? q = some f) : ∃ n, (f.version? n).isSome = true := by
  have path : f.path = q := by simpa using List.find?_some found
  have unknown : ∀ e ∈ s.entries, e.path ≠ q := fun e he same =>
    nomatch fresh.symm.trans (hs.entry?_eq_some_iff.mpr ⟨he, same⟩)
  have member := List.mem_of_find?_eq_some found
  rw [store_run] at member
  have saved := (Store.mem_entries_saves member).resolve_left fun hf => unknown f hf path
  have whole := (saved_run c s call).whole f saved
  cases versions : f.versions with
  | nil =>
    obtain ⟨e, he, core⟩ := whole.known versions
    exact absurd (core.path.symm.trans path) (unknown e he)
  | cons v vs => exact ⟨v.name, Entry.isSome_version?_iff.mpr ⟨v, versions ▸ List.mem_cons_self, rfl⟩⟩

/-- Calls that come to the same for all names have the same entries on record. -/
theorem isSome_of_alike (hs : s.WellFormed) (alike : ∀ n, Alike view n (run c s call) (run c' s call)) (q : EntryPath) :
    ((run c s call).store.entry? q).isSome = ((run c' s call).store.entry? q).isSome := by
  cases known : s.entry? q with
  | some e => rw [isSome_run hs c call (by rw [known]; rfl), isSome_run hs c' call (by rw [known]; rfl)]
  | none =>
    -- A new entry shows one of its versions, so the other call has it too.
    have seen {c c' : Context} (same : ∀ n, viewOf (view q) n ((run c s call).store.entry? q) =
        viewOf (view q) n ((run c' s call).store.entry? q)) (found : ((run c s call).store.entry? q).isSome = true) :
        ((run c' s call).store.entry? q).isSome = true := by
      obtain ⟨f, hf⟩ := Option.isSome_iff_exists.mp found
      obtain ⟨n, version⟩ := version_of_fresh hs known hf
      have shown : (viewOf (view q) n ((run c s call).store.entry? q)).isSome = true := by
        rw [hf, viewOf, Option.bind_some, Option.isSome_map, version]
      rw [same n] at shown
      cases other : (run c' s call).store.entry? q with
      | none =>
        rw [other] at shown
        exact nomatch shown
      | some g => rfl
    exact Bool.eq_iff_iff.mpr ⟨seen fun n => (alike n).shown q, seen fun n => ((alike n).shown q).symm⟩

end Reconcile

end WorkflowCatalog
