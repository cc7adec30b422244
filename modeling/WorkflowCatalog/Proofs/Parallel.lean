import WorkflowCatalog.Proofs.Siblings

/-!
# Two runs side by side

Two runs of one part of a call are set side by side, at two times and in two catalogs. Where nothing disturbs them they
go the same way: both come to an end or both stop at the same error, they hand in the same results, and they save the
same entries but for the times at which new files are created. `Pass.Parallel` says so for a part of a call whatever
was done before it. There is one rule for each primitive, and one for a part that is followed by another; the rest
follows the text of the call. Only a job looks into the catalog, and only for the entry that it is for.
-/
namespace WorkflowCatalog

open Fetch

/-! ## What two runs have in common -/

namespace Pass

variable {α β γ δ ε : Type}

/-- Both end with a value, and the values are related, or both stop at the same error. -/
inductive Match (R : α → β → Prop) : Except SyncError α → Except SyncError β → Prop
  | ok {a : α} {b : β} (related : R a b) : Match R (.ok a) (.ok b)
  | error (err : SyncError) : Match R (.error err) (.error err)

theorem Match.weaken {R S : α → β → Prop} {r : Except SyncError α} {r' : Except SyncError β} (h : Match R r r')
    (weaker : ∀ a b, R a b → S a b) : Match S r r' := by
  cases h with
  | ok related => exact .ok (weaker _ _ related)
  | error err => exact .error err

theorem Match.eq {r r' : Except SyncError α} (h : Match Eq r r') : r = r' := by
  cases h with
  | ok same => rw [same]
  | error err => rfl

theorem Match.of_map {view : α → β} {r r' : Except SyncError α} (h : r.map view = r'.map view) :
    Match (fun a b => r = .ok a ∧ r' = .ok b ∧ view a = view b) r r' := by
  cases r with
  | error err =>
    cases r' with
    | error err' => exact Except.error.inj h ▸ .error err
    | ok b => exact nomatch h
  | ok a =>
    cases r' with
    | error err' => exact nomatch h
    | ok b => exact .ok ⟨rfl, rfl, Except.ok.inj h⟩

/-- From `p` to `p'` and from `q` to `q'` the same is told, and what is saved is the same as far as it is looked at. -/
structure Abreast (view : Entry → ε) (p q p' q' : Progress) : Prop where
  told : ∃ out, p'.results = p.results ++ out ∧ q'.results = q.results ++ out
  saved : ∃ es fs, es.map view = fs.map view ∧ Wrote p p' es ∧ Wrote q q' fs

/-- From `p` and `q` two parts of calls go the same way. -/
structure InStep (view : Entry → ε) (R : α → β → Prop) (x : Pass α) (y : Pass β) (p q : Progress) : Prop where
  ends : Match R (exec x p).1 (exec y q).1
  abreast : Abreast view p q (exec x p).2 (exec y q).2

/-- Wherever two calls have come to, these parts of them go the same way. -/
def Parallel (view : Entry → ε) (R : α → β → Prop) (x : Pass α) (y : Pass β) : Prop := ∀ p q, InStep view R x y p q

variable {view : Entry → ε} {p q p' q' p'' q'' : Progress}

theorem Abreast.refl (view : Entry → ε) (p q : Progress) : Abreast view p q p q :=
  ⟨⟨[], (List.append_nil _).symm, (List.append_nil _).symm⟩, [], [], rfl, .refl p, .refl q⟩

theorem Abreast.trans (h : Abreast view p q p' q') (k : Abreast view p' q' p'' q'') : Abreast view p q p'' q'' := by
  obtain ⟨⟨out, hp, hq⟩, es, fs, same, wp, wq⟩ := h
  obtain ⟨⟨out', kp, kq⟩, es', fs', same', wp', wq'⟩ := k
  refine ⟨⟨out ++ out', ?_, ?_⟩, es ++ es', fs ++ fs', ?_, wp.trans wp', wq.trans wq'⟩
  · rw [kp, hp, List.append_assoc]
  · rw [kq, hq, List.append_assoc]
  · rw [List.map_append, List.map_append, same, same']

/-- Reading sets two runs no further apart. -/
theorem Reads.abreast (hp : Reads p p') (hq : Reads q q') (view : Entry → ε) : Abreast view p q p' q' := by
  refine ⟨⟨[], ?_, ?_⟩, [], [], rfl, hp.wrote, hq.wrote⟩
  · rw [hp.results, List.append_nil]
  · rw [hq.results, List.append_nil]

/-! ## Rules -/

variable {R : α → β → Prop} {S : γ → δ → Prop} {c c' : Context}

theorem parallel_pure {a : α} {b : β} (h : R a b) : Parallel view R (pure a) (pure b) :=
  fun p q => ⟨.ok h, .refl view p q⟩

theorem parallel_throw (err : SyncError) : Parallel view R (throw err) (throw err) :=
  fun p q => ⟨.error err, .refl view p q⟩

/-- What follows two parts that go the same way has to do so from where these have come to. -/
theorem InStep.bind {x : Pass α} {y : Pass β} {f : α → Pass γ} {g : β → Pass δ} (first : InStep view R x y p q)
    (rest : ∀ a b, R a b → InStep view S (f a) (g b) (exec x p).2 (exec y q).2) :
    InStep view S (x >>= f) (y >>= g) p q := by
  rcases hx : exec x p with ⟨r, p'⟩
  rcases hy : exec y q with ⟨r', q'⟩
  obtain ⟨ends, abreast⟩ := first
  rw [hx, hy] at ends abreast rest
  cases ends with
  | error err =>
    refine ⟨?_, ?_⟩ <;> rw [exec_bind_error hx, exec_bind_error hy]
    · exact .error err
    · exact abreast
  | ok related =>
    obtain ⟨ends', abreast'⟩ := rest _ _ related
    refine ⟨?_, ?_⟩ <;> rw [exec_bind_ok hx, exec_bind_ok hy]
    · exact ends'
    · exact abreast.trans abreast'

theorem parallel_bind {x : Pass α} {y : Pass β} {f : α → Pass γ} {g : β → Pass δ} (first : Parallel view R x y)
    (rest : ∀ a b, R a b → Parallel view S (f a) (g b)) : Parallel view S (x >>= f) (y >>= g) :=
  fun p q => (first p q).bind fun a b related => rest a b related _ _

theorem Parallel.weaken {T : α → β → Prop} {x : Pass α} {y : Pass β} (h : Parallel view R x y)
    (weaker : ∀ a b, R a b → T a b) : Parallel view T x y :=
  fun p q => ⟨(h p q).ends.weaken weaker, (h p q).abreast⟩

theorem parallel_push (x : SyncResult) : Parallel view Eq (push x) (push x) :=
  fun p q => ⟨.ok rfl, ⟨[x], rfl, rfl⟩, [], [], rfl, (Wrote.refl p).told _, (Wrote.refl q).told _⟩

theorem parallel_stop (x : SyncResult) (err : SyncError) : Parallel view R (stop x err) (stop x err) :=
  parallel_bind (parallel_push (x.fail err.message)) fun _ _ _ => parallel_throw err

theorem parallel_attempt {f : Fetch α} {g : Fetch β} (hf : f.IsSteady) (hg : g.IsSteady) :
    Parallel view (fun a b => a = f.answer ∧ b = g.answer) (attempt f) (attempt g) := by
  intro p q
  have reads {α : Type} {f : Fetch α} (steady : f.IsSteady) (p : Progress) :
      Reads p { p with log := (f.run.run p.log).2 } := ⟨rfl, rfl, steady.saves p.log⟩
  exact ⟨.ok ⟨hf.answer p.log, hg.answer q.log⟩, (reads hf p).abreast (reads hg q) view⟩

theorem parallel_poll (quiet : c.IsQuiet) (quiet' : c'.IsQuiet) :
    Parallel view (fun a b => a = false ∧ b = false) (poll c) (poll c') :=
  fun p q => ⟨.ok ⟨quiet.lasting _, quiet'.lasting _⟩, (reads_poll p).abreast (reads_poll q) view⟩

theorem parallel_save (quiet : c.IsQuiet) (quiet' : c'.IsQuiet) {e f : Entry} (same : view e = view f) :
    Parallel view (fun a b => a = none ∧ b = none) (save c e) (save c' f) := by
  intro p q
  refine ⟨?_, ?_⟩ <;> rw [exec_save (quiet.saving p.log), exec_save (quiet'.saving q.log)]
  · exact .ok ⟨rfl, rfl⟩
  · refine ⟨⟨[], (List.append_nil _).symm, (List.append_nil _).symm⟩, [e], [f], ?_, wrote_save p e, wrote_save q f⟩
    rw [List.map_singleton, List.map_singleton, same]

end Pass

/-! ## New files -/

/-- The version of that name at that address. -/
def Store.version? (s : Store) (p : EntryPath) (name : String) : Option Version :=
  (s.entry? p).bind fun e => e.version? name

/-- The entry with another time of creation for the files that its versions did not have in that catalog. -/
def Entry.datedSince (t : Timestamp) (s : Store) (e : Entry) : Entry :=
  { e with versions := e.versions.map fun v => v.dated t (s.version? e.path v.name) }

namespace Entry

variable {t : Timestamp} {s : Store} {e f : Entry}

theorem sameCore_datedSince (t : Timestamp) (s : Store) (e : Entry) : (e.datedSince t s).SameCore e :=
  ⟨rfl, rfl, rfl, rfl, rfl⟩

theorem core_of_datedSince (h : e.datedSince t s = f.datedSince t s) : e.SameCore f :=
  (sameCore_datedSince t s e).symm.trans (h ▸ sameCore_datedSince t s f)

theorem isEmpty_of_datedSince (h : e.datedSince t s = f.datedSince t s) :
    e.versions.isEmpty = f.versions.isEmpty := by
  have versions := congrArg (fun e : Entry => e.versions.isEmpty) h
  simpa only [datedSince, List.isEmpty_map] using versions

theorem datedSince_upsert (v : Version) :
    (e.upsert v).datedSince t s = (e.datedSince t s).upsert (v.dated t (s.version? e.path v.name)) := by
  have names (u : Version) : (u.dated t (s.version? e.path u.name)).name = u.name := rfl
  simp only [upsert, datedSince, Keyed.map_upsert names]

theorem datedSince_remove (name : String) : (e.remove name).datedSince t s = (e.datedSince t s).remove name := by
  simp only [remove, datedSince, Version.remove, List.eraseP_map]
  rfl

end Entry

namespace Sync

open Pass

variable {c : Context} {sources : List VersionSource} {s : Store} {w w' : Work} {now t : Timestamp}

/-- Two works that differ in nothing but the times of files that are new since the catalog was `s`. -/
structure Level (t : Timestamp) (s : Store) (w w' : Work) : Prop where
  entry : w.entry.datedSince t s = w'.entry.datedSince t s
  unsaved : w.unsaved = w'.unsaved
  result : w.result = w'.result

theorem Level.refl (t : Timestamp) (s : Store) (w : Work) : Level t s w w := ⟨rfl, rfl, rfl⟩

/-- The changes are still to be made: the versions that they are about are those of the catalog. -/
structure Ahead (s : Store) (changes : List Change) (w : Work) : Prop where
  distinct : w.entry.HasDistinctNames
  versions : ∀ change ∈ changes, w.entry.version? change.name = s.version? w.entry.path change.name

theorem Ahead.advance {change : Change} {changes : List Change} (h : Ahead s (change :: changes) w)
    (others : change.name ∉ changes.map Change.name) : Ahead s changes (advance c sources w change) := by
  refine ⟨distinct_advance h.distinct change, fun next hn => ?_⟩
  have other : change.name ≠ next.name := fun same => others (same ▸ List.mem_map_of_mem hn)
  rw [version?_advance h.distinct, if_neg other, (core_advance w change).path]
  exact h.versions next (List.mem_cons_of_mem change hn)

/-- Of two builds of a version that has not been touched, both fail alike or both come to the same, but for the times
of new files. -/
theorem match_answer (level : Level t s w w') {u : VersionSource}
    (here : w.entry.version? u.remote.name = s.version? w.entry.path u.remote.name)
    (there : w'.entry.version? u.remote.name = s.version? w'.entry.path u.remote.name) :
    Match (fun v v' => v.name = v'.name ∧ (w.entry.upsert v).datedSince t s = (w'.entry.upsert v').datedSince t s)
      (Build.version c w.entry u).answer (Build.version (c.withClock now) w'.entry u).answer := by
  have core := Entry.core_of_datedSince level.entry
  have same : w'.entry.version? u.remote.name = w.entry.version? u.remote.name := by rw [there, here, core.path]
  rw [Build.version_congr core.symm same]
  refine (Match.of_map (Build.dated_withClock c w.entry u now t).symm).weaken fun v v' built => ?_
  obtain ⟨hv, hv', dated⟩ := built
  have name := Build.name_of_answer hv
  have name' := Build.name_of_answer hv'
  refine ⟨name.trans name'.symm, ?_⟩
  rw [Entry.datedSince_upsert, Entry.datedSince_upsert, level.entry, name, name', ← core.path, ← here, dated]

/-! ## The changes to one entry -/

variable (quiet : c.IsQuiet)
include quiet

theorem parallel_saved {e f : Entry} (same : e.datedSince t s = f.datedSince t s) (r : SyncResult) :
    Parallel (Entry.datedSince t s) (fun v v' => v = ⟨e, false, r⟩ ∧ v' = ⟨f, false, r⟩) (saved c w e r)
      (saved (c.withClock now) w' f r) := by
  refine parallel_bind (parallel_save quiet (quiet.withClock now) same) fun a b none_failed => ?_
  obtain ⟨rfl, rfl⟩ := none_failed
  exact parallel_pure ⟨rfl, rfl⟩

omit quiet in
/-- A build that fails is noted in both runs, or stops both. -/
theorem parallel_failed (level : Level t s w w') (name : String) (err : SyncError) :
    Parallel (Entry.datedSince t s)
      (fun v v' => v = { w with result := w.result.fail (name ++ ": " ++ err.message) } ∧
        v' = { w' with result := w'.result.fail (name ++ ": " ++ err.message) })
      (failed c w name err) (failed (c.withClock now) w' name err) := by
  unfold failed
  rw [← level.result, show (c.withClock now).options = c.options from rfl]
  cases c.options.isolation with
  | perVersion => exact parallel_pure ⟨rfl, by rw [level.result]⟩
  | failFast => exact parallel_bind (parallel_push _) fun _ _ _ => parallel_throw err

/-- One change comes to the same in both runs. -/
theorem parallel_apply (level : Level t s w w') {change : Change}
    (here : w.entry.version? change.name = s.version? w.entry.path change.name)
    (there : w'.entry.version? change.name = s.version? w'.entry.path change.name) :
    Parallel (Entry.datedSince t s)
      (fun v v' => v = advance c sources w change ∧ v' = advance (c.withClock now) sources w' change ∧ Level t s v v')
      (apply c sources w change) (apply (c.withClock now) sources w' change) := by
  cases change with
  | remove name =>
    have same : (w.entry.remove name).datedSince t s = (w'.entry.remove name).datedSince t s := by
      rw [Entry.datedSince_remove, Entry.datedSince_remove, level.entry]
    simp only [apply, level.result]
    refine (parallel_saved quiet same _).weaken fun v v' made => ?_
    obtain ⟨rfl, rfl⟩ := made
    exact ⟨by rw [advance, level.result], rfl, same, rfl, rfl⟩
  | build isNew name =>
    simp only [Change.name_build] at here there
    cases found : sources.find? fun u => u.remote.name == name with
    | none =>
      simp only [apply, found, advance_unlisted]
      exact parallel_pure ⟨rfl, rfl, level⟩
    | some u =>
      obtain rfl : u.remote.name = name := by simpa using List.find?_some found
      have ends : Match _ (Build.version c w.entry u).answer (Build.version (c.withClock now) w'.entry u).answer :=
        match_answer level here there
      simp only [apply, found]
      refine parallel_bind (parallel_attempt (Build.steady_version c _ _) (Build.steady_version _ _ _))
        fun r r' answers => ?_
      obtain ⟨rfl, rfl⟩ := answers
      generalize hv : (Build.version c w.entry u).answer = r at ends ⊢
      generalize hv' : (Build.version (c.withClock now) w'.entry u).answer = r' at ends ⊢
      cases ends with
      | error err =>
        rw [advance_failed found hv, advance_failed found hv']
        refine (parallel_failed level _ err).weaken fun v v' noted => ?_
        obtain ⟨rfl, rfl⟩ := noted
        exact ⟨rfl, rfl, level.entry, level.unsaved, by rw [level.result]⟩
      | @ok v v' same =>
        obtain ⟨name, same⟩ := same
        dsimp only
        rw [advance_built found hv, advance_built found hv', ← name, ← level.result]
        refine (parallel_saved quiet same _).weaken fun x x' saved => ?_
        obtain ⟨rfl, rfl⟩ := saved
        exact ⟨rfl, rfl, same, rfl, rfl⟩

/-- Changes that are still to be made come to the same in both runs, one after the other. -/
theorem parallel_applyAll (level : Level t s w w') {changes : List Change} (distinct : (changes.map Change.name).Nodup)
    (ahead : Ahead s changes w) (ahead' : Ahead s changes w') :
    Parallel (Entry.datedSince t s) (Level t s) (applyAll c sources w changes)
      (applyAll (c.withClock now) sources w' changes) := by
  induction changes generalizing w w' with
  | nil => exact parallel_pure level
  | cons change changes ih =>
    rw [List.map_cons, List.nodup_cons] at distinct
    refine parallel_bind (parallel_poll quiet (quiet.withClock now)) fun stop stop' go => ?_
    obtain ⟨rfl, rfl⟩ := go
    have here := ahead.versions change List.mem_cons_self
    have there := ahead'.versions change List.mem_cons_self
    refine parallel_bind (parallel_apply quiet level here there) fun v v' advanced => ?_
    obtain ⟨rfl, rfl, level⟩ := advanced
    exact ih level distinct.2 (ahead.advance distinct.1) (ahead'.advance distinct.1)

theorem parallel_finish (level : Level t s w w') (isNew : Bool) :
    Parallel (Entry.datedSince t s) Eq (finish c isNew w) (finish (c.withClock now) isNew w') := by
  unfold finish
  rw [level.unsaved, Entry.isEmpty_of_datedSince level.entry, level.result]
  split
  · refine parallel_bind (parallel_save quiet (quiet.withClock now) level.entry) fun a b none_failed => ?_
    obtain ⟨rfl, rfl⟩ := none_failed
    exact parallel_push w'.result
  · exact parallel_push w'.result

end Sync

/-! ## Jobs and deletions -/

namespace Job

open Pass Sync

variable {c : Context} {j : Job} {js : List Job} {s : Store} {before : Entry} {isNew : Bool} {d : VersionDiff}
  {now t : Timestamp} {p q : Progress}

/-- The changes of a job come to the same in both runs. -/
theorem parallel_changes (quiet : c.IsQuiet) (begins : j.Begins (s.entry? j.path) before isNew d)
    (hold : ∀ e, s.entry? j.path = some e → e.path = j.path ∧ e.HasDistinctNames) :
    Parallel (Entry.datedSince t s) Eq (applyAll c j.sources (j.firstWork before d) d.changes >>= finish c isNew)
      (applyAll (c.withClock now) j.sources (j.firstWork before d) d.changes >>= finish (c.withClock now) isNew) := by
  have first : (j.firstWork before d).entry.HasDistinctNames :=
    distinct_firstWork (begins.distinct fun e found => (hold e found).2)
  have path : (j.firstWork before d).entry.path = j.path :=
    (sameCore_withSettings before j.sources).path.trans (begins.path fun e found => (hold e found).1)
  have ahead : Ahead s d.changes (j.firstWork before d) :=
    ⟨first, fun change _ => by rw [version?_firstWork, begins.version?, path, Store.version?]⟩
  have distinct := VersionDiff.nodup_changes begins.compared first
  exact parallel_bind (parallel_applyAll quiet (.refl t s _) distinct ahead ahead) fun w w' level =>
    parallel_finish quiet level isNew

/-- A job that finds the same entry in two catalogs goes the same way in both. -/
theorem inStep_run (quiet : c.IsQuiet)
    (hold : ∀ e, s.entry? j.path = some e → e.path = j.path ∧ e.HasDistinctNames)
    (hp : p.store.entry? j.path = s.entry? j.path) (hq : q.store.entry? j.path = s.entry? j.path) :
    InStep (Entry.datedSince t s) Eq (j.run c) (j.run (c.withClock now)) p q := by
  unfold run Sync.entry
  -- Both look up the same entry, and what they do with it has nothing to do with the rest of the catalog.
  have look : InStep (Entry.datedSince t s) (fun old old' => old = s.entry? j.path ∧ old' = s.entry? j.path)
      (Pass.look c .entry fun u => u.entry? j.path) (Pass.look (c.withClock now) .entry fun u => u.entry? j.path)
      p q := by
    refine ⟨?_, ?_⟩ <;> rw [exec_look, exec_look, hp, hq, show (c.withClock now).world = c.world from rfl]
    · cases c.world.lookupFault .entry with
      | some err => exact .error err
      | none => exact .ok ⟨rfl, rfl⟩
    · exact .refl _ p q
  refine look.bind fun old old' found => ?_
  obtain ⟨rfl, rfl⟩ := found
  refine (?_ : Parallel (Entry.datedSince t s) Eq _ _) _ _
  cases start : startingPoint j.path (s.entry? j.path) j.sources with
  | none => exact parallel_pure rfl
  | some begun =>
    obtain ⟨before, isNew⟩ := begun
    cases compared : diff (withSettings before j.sources).versions j.listing j.mode j.forced with
    | error err =>
      simp only [compared]
      exact parallel_stop _ err
    | ok d =>
      simp only [compared]
      split
      · split
        · exact parallel_pure rfl
        · exact parallel_push _
      · exact parallel_changes quiet ⟨start, compared⟩ hold

/-- A job changes nothing at other addresses. -/
theorem elsewhere_run (c : Context) (plain : j.path.IsPlain) (hp : p.store.WellFormed) :
    (exec (j.run c) p).2.store.WellFormed ∧
      ∀ path, j.path ≠ path → (exec (j.run c) p).2.store.entry? path = p.store.entry? path := by
  obtain ⟨r, q, es, hx, wrote, ran⟩ := wrote_run c j p
  rw [hx, wrote.store]
  exact ⟨ran.wellFormed_saves hp plain, fun path other => ran.entry?_saves_elsewhere hp plain other⟩

/-- Jobs for different entries go the same way in two catalogs that agree on these entries. -/
theorem inStep_runAll (quiet : c.IsQuiet) (hs : s.WellFormed) (plain : ∀ j ∈ js, j.path.IsPlain)
    (distinct : (js.map Job.path).Nodup) (hp : p.store.WellFormed) (hq : q.store.WellFormed)
    (agree : ∀ j ∈ js, p.store.entry? j.path = s.entry? j.path ∧ q.store.entry? j.path = s.entry? j.path) :
    InStep (Entry.datedSince t s) Eq (runAll c js) (runAll (c.withClock now) js) p q := by
  induction js generalizing p q with
  | nil => exact parallel_pure rfl p q
  | cons j js ih =>
    rw [List.forall_mem_cons] at plain agree
    rw [List.map_cons, List.nodup_cons] at distinct
    have hold : ∀ e, s.entry? j.path = some e → e.path = j.path ∧ e.HasDistinctNames := fun e found =>
      ⟨(hs.entry?_eq_some_iff.mp found).2, (hs.entries.entry? found).distinct⟩
    obtain ⟨hp', keeps⟩ := elsewhere_run c plain.1 hp
    obtain ⟨hq', keeps'⟩ := elsewhere_run (c.withClock now) plain.1 hq
    refine (inStep_run quiet hold agree.1.1 agree.1.2).bind fun _ _ _ => ?_
    refine ih plain.2 distinct.2 hp' hq' fun k hk => ?_
    have other : j.path ≠ k.path := fun same => distinct.1 (same ▸ List.mem_map_of_mem hk)
    rw [keeps k.path other, keeps' k.path other]
    exact agree.2 k hk

end Job

open Pass in
/-- The deletion of a version from given entries has nothing to do with the catalog. -/
theorem Reconcile.parallel_deleteFrom {c c' : Context} (quiet : c.IsQuiet) (quiet' : c'.IsQuiet) {ε : Type}
    (view : Entry → ε) (name : String) (entries : List Entry) :
    Parallel view Eq (deleteFrom c name entries) (deleteFrom c' name entries) := by
  induction entries with
  | nil => exact parallel_pure rfl
  | cons e es ih =>
    unfold deleteFrom
    cases e.version? name with
    | none => exact ih
    | some v =>
      dsimp only
      split
      · exact parallel_bind (parallel_push _) fun _ _ _ => ih
      · refine parallel_bind (parallel_save quiet quiet' rfl) fun a b none_failed => ?_
        obtain ⟨rfl, rfl⟩ := none_failed
        exact parallel_bind (parallel_push _) fun _ _ _ => ih

end WorkflowCatalog
