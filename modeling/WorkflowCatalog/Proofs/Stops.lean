import WorkflowCatalog.Proofs.Reports

/-!
# What is told of the error that stops a call

A call that stops early, because it is cancelled, because the catalog cannot be read or saved, or because a version
fails and must not, hands in a failed result. Its message has the error in it as long as no version of the same entry
has failed before: a result keeps its first message, so the error that stops the call is lost after such a failure.
-/
namespace WorkflowCatalog

open Pass Sync

/-- The text of the error is part of the message. -/
def SyncError.IsIn (err : SyncError) (message : String) : Prop := err.message.toList <:+: message.toList

instance (err : SyncError) (message : String) : Decidable (err.IsIn message) :=
  inferInstanceAs (Decidable (err.message.toList <:+: message.toList))

theorem SyncError.isIn_message (err : SyncError) : err.IsIn err.message := List.infix_rfl

theorem SyncError.isIn_named (name : String) (err : SyncError) : err.IsIn (name ++ ": " ++ err.message) := by
  rw [IsIn, String.toList_append]
  exact List.infix_append_right

/-- The result is one of a failure, and its message has the error in it. -/
def SyncResult.Explains (x : SyncResult) (err : SyncError) : Prop :=
  x.success = false ∧ ∃ m ∈ x.message, err.IsIn m

instance (x : SyncResult) (err : SyncError) : Decidable (x.Explains err) :=
  inferInstanceAs (Decidable (x.success = false ∧ ∃ m ∈ x.message, err.IsIn m))

/-- A part of a call stops in one way only. -/
theorem Pass.error_unique {α : Type} {x : Pass α} {p q t : Progress} {e err : SyncError}
    (h : exec x p = (.error err, q)) (k : exec x p = (.error e, t)) : e = err ∧ t = q := by
  obtain ⟨same, rfl⟩ := Prod.mk.inj (k.symm.trans h)
  exact ⟨Except.error.inj same, rfl⟩

namespace Sync

variable {c : Context} {sources : List VersionSource} {err : SyncError} {p q : Progress}

/-! ## Messages -/

/-- What is told of a change that cannot be made. -/
def failure? (c : Context) (sources : List VersionSource) (e : Entry) : Change → Option String
  | .build _ name =>
    match rebuilt? c sources e name with
    | some (.error err) => some (name ++ ": " ++ err.message)
    | _ => none
  | .remove _ => none

theorem failure?_eq_some {e : Entry} {change : Change} {m : String} (h : failure? c sources e change = some m) :
    ∃ isNew n err, change = .build isNew n ∧ rebuilt? c sources e n = some (.error err) ∧
      m = n ++ ": " ++ err.message := by
  cases change with
  | remove name => cases h
  | build isNew name =>
    rw [failure?] at h
    split at h
    · exact ⟨isNew, name, _, rfl, ‹_›, (Option.some.inj h).symm⟩
    · cases h

/-- A change that cannot be made ends the call under the strict policy. -/
theorem failure?_of_not_halts (strict : c.options.isolation = .failFast) {e : Entry} {change : Change}
    (goes : ¬ Halts c sources e change) : failure? c sources e change = none := by
  cases failed : failure? c sources e change with
  | none => rfl
  | some m =>
    obtain ⟨isNew, n, err, same, rebuilt, -⟩ := failure?_eq_some failed
    exact absurd ⟨strict, isNew, n, err, same, rebuilt⟩ goes

/-- A message stays, and a change that cannot be made leaves one if there is none. -/
theorem message_advance (w : Work) (change : Change) :
    (advance c sources w change).result.message = w.result.message.or (failure? c sources w.entry change) := by
  cases change with
  | remove name => exact (Option.or_none).symm
  | build isNew name =>
    rw [advance_build, failure?]
    cases rebuilt? c sources w.entry name with
    | none => exact (Option.or_none).symm
    | some r =>
      cases r with
      | ok v => cases isNew <;> exact (Option.or_none).symm
      | error e =>
        change some (w.result.message.getD _) = _
        cases w.result.message <;> rfl

/-- The message is that of the first change that cannot be made. -/
theorem message_progress {w : Work} (h : w.entry.HasDistinctNames) {done : List Change}
    (hd : (done.map Change.name).Nodup) : (progress c sources w done).result.message =
      w.result.message.or (done.findSome? (failure? c sources w.entry)) := by
  induction done generalizing w with
  | nil => exact (Option.or_none).symm
  | cons change done ih =>
    rw [List.map_cons, List.nodup_cons] at hd
    have others : ∀ ch ∈ done, failure? c sources (advance c sources w change).entry ch =
        failure? c sources w.entry ch := by
      intro ch hch
      cases ch with
      | remove name => rfl
      | build isNew name =>
        have other : change.name ≠ name := fun same => hd.1 (List.mem_map.mpr ⟨_, hch, same.symm⟩)
        rw [failure?, failure?, rebuilt?_advance h other]
    rw [progress_cons, ih (distinct_advance h change) hd.2, message_advance, Option.or_assoc,
      ← List.head?_filterMap, List.filterMap_congr others, List.head?_filterMap, List.findSome?_cons]
    cases failure? c sources w.entry change <;> rfl

/-- Under the strict policy the call goes on only as long as there is nothing to tell. -/
theorem message_progress_of_passes (strict : c.options.isolation = .failFast) {w : Work} {done : List Change}
    (passes : Passes c sources w.entry done) : (progress c sources w done).result.message = w.result.message := by
  induction done generalizing w with
  | nil => rfl
  | cons change done ih =>
    obtain ⟨goes, others⟩ := passes
    rw [← entry_advance] at others
    rw [progress_cons, ih others, message_advance, failure?_of_not_halts strict goes, Option.or_none]

/-! ## Where a run stops -/

theorem told_apply {w : Work} {change : Change} (h : exec (apply c sources w change) p = (.error err, q)) :
    ∃ m, err.IsIn m ∧ q.results = p.results ++ [w.result.fail m] := by
  have unsaved {e : Entry} {r : SyncResult} {p : Progress} (h : exec (saved c w e r) p = (.error err, q)) :
      ∃ m, err.IsIn m ∧ q.results = p.results ++ [w.result.fail m] := by
    obtain ⟨t, ⟨hx, -⟩ | ⟨e, hx, -, halted⟩⟩ := exec_saved (c := c) w e r p
    · cases (Prod.mk.inj (h.symm.trans hx)).1
    · obtain ⟨same, rfl⟩ := Prod.mk.inj (h.symm.trans hx)
      obtain rfl := Except.error.inj same
      exact ⟨_, err.isIn_message, halted.results⟩
  cases change with
  | remove name => exact unsaved h
  | build isNew name =>
    cases hs : sources.find? fun s => s.remote.name == name with
    | none =>
      simp only [apply, hs] at h
      cases h
    | some s =>
      have read := exec_attempt (Build.version c w.entry s) p
      simp only [apply, hs, exec_bind_ok read] at h
      cases hv : ((Build.version c w.entry s).run.run p.log).1 with
      | ok v =>
        simp only [hv] at h
        obtain ⟨m, said, told⟩ := unsaved h
        exact ⟨m, said, told⟩
      | error e =>
        simp only [hv] at h
        obtain hx | ⟨t, hx, -, results⟩ :=
          exec_failed (c := c) w name e { p with log := ((Build.version c w.entry s).run.run p.log).2 }
        · cases (Prod.mk.inj (h.symm.trans hx)).1
        · obtain ⟨rfl, rfl⟩ := error_unique h hx
          exact ⟨_, e.isIn_named name, results⟩

variable (c sources) in
/-- A run through changes makes all of them, or it stops and hands in the result at hand. -/
theorem told_applyAll (w : Work) (changes : List Change) (p : Progress) :
    ∃ q, (exec (applyAll c sources w changes) p = (.ok (progress c sources w changes), q) ∧ q.results = p.results ∧
        Passes c sources w.entry changes) ∨
      ∃ err done m, exec (applyAll c sources w changes) p = (.error err, q) ∧ done <+: changes ∧
        Passes c sources w.entry done ∧ err.IsIn m ∧
        q.results = p.results ++ [(progress c sources w done).result.fail m] := by
  induction changes generalizing w p with
  | nil => exact ⟨p, .inl ⟨rfl, rfl, trivial⟩⟩
  | cons change changes ih =>
    let polled : Progress := { p with log := .poll :: p.log }
    rw [applyAll, exec_bind_ok (exec_poll c p)]
    cases hc : c.world.cancelled polled.log with
    | true =>
      rw [if_pos rfl, exec_stop]
      exact ⟨_, .inr ⟨.cancelled, [], _, rfl, List.nil_prefix, trivial, SyncError.isIn_message _, rfl⟩⟩
    | false =>
      rw [if_neg Bool.false_ne_true]
      obtain ⟨q, ⟨hx, -, goes⟩ | ⟨err, hx, -⟩⟩ := wrote_apply c sources w change polled
      · obtain ⟨_, ⟨same, results, -⟩ | ⟨_, _, _, same, -⟩⟩ := exec_apply c sources w change polled
        · obtain rfl := (Prod.mk.inj (hx.symm.trans same)).2
          rw [exec_bind_ok hx]
          obtain ⟨t, ⟨kx, more, go⟩ | ⟨err, done, m, kx, made, go, said, told⟩⟩ := ih (advance c sources w change) q
          · rw [entry_advance] at go
            exact ⟨t, .inl ⟨kx, more.trans results, goes, go⟩⟩
          · rw [entry_advance] at go
            refine ⟨t, .inr ⟨err, change :: done, m, kx, (List.prefix_cons_inj change).mpr made, ⟨goes, go⟩, said, ?_⟩⟩
            rw [told, results]
            rfl
        · cases (Prod.mk.inj (hx.symm.trans same)).1
      · obtain ⟨m, said, told⟩ := told_apply hx
        rw [exec_bind_error hx]
        exact ⟨q, .inr ⟨err, [], m, rfl, List.nil_prefix, trivial, said, told⟩⟩

theorem told_finish {isNew : Bool} {w : Work} (h : exec (finish c isNew w) p = (.error err, q)) :
    q.results = p.results ++ [w.result.fail err.message] := by
  obtain ⟨t, ⟨hx, -⟩ | ⟨e, hx, -, halted⟩⟩ := Job.exec_finish c isNew w p
  · cases (Prod.mk.inj (h.symm.trans hx)).1
  · obtain ⟨rfl, rfl⟩ := error_unique h hx
    exact halted.results

end Sync

/-! ## Jobs -/

namespace Job

variable {c : Context} {j : Job} {js : List Job} {old : Option Entry} {err : SyncError} {p q : Progress}

/-- What a job tells of the error that stops it: its message has the error in it, or it is that of a version that has
failed before. -/
structure TellsStop (c : Context) (j : Job) (old : Option Entry) (err : SyncError) (x : SyncResult) : Prop where
  entry : x.entry = some j.path.toText
  failed : x.success = false
  message : (∃ m ∈ x.message, err.IsIn m) ∨ c.options.isolation = .perVersion ∧
    ∃ before isNew n e, startingPoint j.path old j.sources = some (before, isNew) ∧
      rebuilt? c j.sources before n = some (.error e) ∧ x.message = some (n ++ ": " ++ e.message)

theorem tellsStop_of_passes {before : Entry} {isNew : Bool} {d : VersionDiff} (begins : j.Begins old before isNew d)
    (distinct : before.HasDistinctNames) {done : List Change} (made : done <+: d.changes)
    (passes : Passes c j.sources (withSettings before j.sources) done) {m : String} (said : err.IsIn m) :
    j.TellsStop c old err ((progress c j.sources (j.firstWork before d) done).result.fail m) := by
  have first : (j.firstWork before d).entry.HasDistinctNames := distinct_firstWork distinct
  refine ⟨entry_progress _ _, rfl, ?_⟩
  change (∃ m' ∈ some ((progress c j.sources (j.firstWork before d) done).result.message.getD m), _) ∨ _
  cases policy : c.options.isolation with
  | failFast =>
    have silent : (progress c j.sources (j.firstWork before d) done).result.message = none :=
      message_progress_of_passes policy passes
    exact .inl ⟨m, by rw [silent]; rfl, said⟩
  | perVersion =>
    have kept : (progress c j.sources (j.firstWork before d) done).result.message =
        none.or (done.findSome? (failure? c j.sources (j.firstWork before d).entry)) :=
      message_progress first (VersionDiff.nodup_of_prefix begins.compared first made)
    cases failed : done.findSome? (failure? c j.sources (j.firstWork before d).entry) with
    | none =>
      rw [failed] at kept
      exact .inl ⟨m, by rw [kept]; rfl, said⟩
    | some m' =>
      rw [failed] at kept
      obtain ⟨change, -, failed⟩ := List.exists_of_findSome?_eq_some failed
      obtain ⟨_, n, e, -, rebuilt, rfl⟩ := failure?_eq_some failed
      have settings : rebuilt? c j.sources before n = some (.error e) :=
        (rebuilt?_congr (sameCore_withSettings before j.sources) (version?_withSettings before j.sources n)).symm.trans
          rebuilt
      refine .inr ⟨rfl, before, isNew, n, e, begins.start, settings, ?_⟩
      change some ((progress c j.sources (j.firstWork before d) done).result.message.getD m) = _
      rw [kept]
      rfl

theorem tellsStop_changes {before : Entry} {isNew : Bool} {d : VersionDiff} (begins : j.Begins old before isNew d)
    (distinct : before.HasDistinctNames)
    (h : exec (applyAll c j.sources (j.firstWork before d) d.changes >>= finish c isNew) p = (.error err, q)) :
    ∃ x, q.results = p.results ++ [x] ∧ j.TellsStop c old err x := by
  obtain ⟨t, ⟨hx, results, passes⟩ | ⟨e, done, m, hx, made, passes, said, told⟩⟩ :=
    told_applyAll c j.sources (j.firstWork before d) d.changes p
  · rw [exec_bind_ok hx] at h
    refine ⟨_, (told_finish h).trans (by rw [results]), ?_⟩
    exact tellsStop_of_passes begins distinct (List.prefix_refl _) passes err.isIn_message
  · obtain ⟨rfl, rfl⟩ := error_unique h (exec_bind_error hx _)
    exact ⟨_, told, tellsStop_of_passes begins distinct made passes said⟩

/-- A job that stops the call hands in a result that tells so. -/
theorem tellsStop_run (read : c.world.lookupFault .entry = none)
    (distinct : ∀ e, p.store.entry? j.path = some e → e.HasDistinctNames) (h : exec (j.run c) p = (.error err, q)) :
    ∃ x, q.results = p.results ++ [x] ∧ j.TellsStop c (p.store.entry? j.path) err x := by
  unfold run Sync.entry at h
  rw [exec_bind_ok (show exec (look c .entry fun s => s.entry? j.path) p = (.ok _, p) by rw [exec_look, read])] at h
  cases hs : startingPoint j.path (p.store.entry? j.path) j.sources with
  | none =>
    simp only [hs] at h
    cases h
  | some begun =>
    obtain ⟨before, isNew⟩ := begun
    cases hd : diff (withSettings before j.sources).versions j.listing j.mode j.forced with
    | error e =>
      simp only [hs, hd] at h
      obtain ⟨rfl, rfl⟩ := error_unique h (exec_stop _ _ _)
      exact ⟨_, rfl, rfl, rfl, .inl ⟨_, rfl, SyncError.isIn_message _⟩⟩
    | ok d =>
      have begins : j.Begins (p.store.entry? j.path) before isNew d := ⟨hs, hd⟩
      simp only [hs, hd] at h
      split at h
      · split at h
        · cases h
        · cases h
      · exact tellsStop_changes begins (begins.distinct distinct) h

/-- Where jobs stop the call, the one that does tells so. -/
theorem tellsStop_runAll (read : c.world.lookupFault .entry = none) (hs : p.store.WellFormed)
    (plain : ∀ j ∈ js, j.path.IsPlain) (distinct : (js.map Job.path).Nodup)
    (h : exec (runAll c js) p = (.error err, q)) :
    ∃ j ∈ js, ∃ x ∈ q.results, j.TellsStop c (p.store.entry? j.path) err x := by
  induction js generalizing p with
  | nil => cases h
  | cons j js ih =>
    rw [List.forall_mem_cons] at plain
    rw [List.map_cons, List.nodup_cons] at distinct
    obtain ⟨r, t, es, hx, wrote, ran⟩ := wrote_run c j p
    cases r with
    | error e =>
      obtain ⟨rfl, rfl⟩ := error_unique h (exec_bind_error hx _)
      obtain ⟨x, told, stop⟩ := tellsStop_run read (fun f found => (hs.entries.entry? found).distinct) hx
      exact ⟨j, List.mem_cons_self, x, by rw [told]; exact List.mem_append_right _ List.mem_cons_self, stop⟩
    | ok _ =>
      have h := (exec_bind_ok hx fun _ => runAll c js).symm.trans h
      obtain ⟨k, hk, x, hx, stop⟩ := ih (wrote.store ▸ ran.wellFormed_saves hs plain.1) plain.2 distinct.2 h
      have other : j.path ≠ k.path := fun same => distinct.1 (same ▸ List.mem_map_of_mem hk)
      have same : t.store.entry? k.path = p.store.entry? k.path := by
        rw [wrote.store, ran.entry?_saves_elsewhere hs plain.1 other]
      exact ⟨k, List.mem_cons_of_mem j hk, x, hx, same ▸ stop⟩

end Job

/-! ## Calls -/

/-- What is told of a deletion that has been made, or that was not to be made, is no failure. -/
theorem Deletion.success {name : String} {entries : List Entry} {s t : Store} {r : Except SyncError Unit}
    {out : List SyncResult} (h : Deletion name entries s r t out) : ∀ x ∈ out, x.success = true := by
  induction h with
  | nil => exact fun x hx => absurd hx List.not_mem_nil
  | absent _ _ ih => exact ih
  | frozen _ _ _ ih => exact List.forall_mem_cons.mpr ⟨rfl, ih⟩
  | removed _ _ _ ih => exact List.forall_mem_cons.mpr ⟨rfl, ih⟩
  | failed => exact fun x hx => absurd hx List.not_mem_nil

/-- The version as the call finds it cannot be built for the entry on record, or for a new one if there is none. -/
def Call.Fails (c : Context) (call : Call) (s : Store) (q : EntryPath) (n : String) (e : SyncError) : Prop :=
  ∃ f source, (s.entry? q = some f ∨ s.entry? q = none ∧ ∃ d, f = .ofDeclaration q d) ∧
    call.Finds c q.name n source ∧ (Build.version c f source).answer = .error e

namespace Reconcile

variable {c : Context} {s : Store} {call : Call} {err : SyncError}

/-- How a call ends; an error is what has stopped it. -/
def status (c : Context) (s : Store) (call : Call) : Except SyncError Unit := (exec (pass c call) ⟨s, [], []⟩).1

theorem explains_closed {out : List SyncResult} (success : ∀ x ∈ out, x.success = true) :
    ∃ x ∈ closed (.error err) out, x.Explains err := by
  rw [closed, if_pos (List.all_eq_true.mpr success)]
  exact ⟨_, List.mem_append_right _ List.mem_cons_self, rfl, _, rfl, err.isIn_message⟩

/-- A call is stopped before it has anything to do, or by what it has to do. -/
theorem stopped_run (stopped : status c s call = .error err) :
    (run c s call).results = closed (.error err) [] ∨
      ∃ a q t, plan c s call = .ok a ∧ Reads ⟨s, [], []⟩ q ∧ exec (a.run c) q = (.error err, t) ∧
        (run c s call).results = closed (.error err) t.results := by
  obtain ⟨q, reads, hx⟩ := performs_pass c call ⟨s, [], []⟩
  cases plan : plan c s call with
  | error e =>
    simp only [plan] at hx
    rw [status, hx] at stopped
    obtain rfl := Except.error.inj stopped
    have results := (run_of_exec hx).2
    rw [reads.results] at results
    exact .inl results
  | ok a =>
    simp only [plan] at hx
    rw [status, hx] at stopped
    have ends : exec (a.run c) q = (.error err, (exec (a.run c) q).2) := Prod.ext stopped rfl
    exact .inr ⟨a, q, _, rfl, reads, ends, (run_of_exec (hx.trans ends)).2⟩

theorem fails_of_tellsStop {js : List Job} (planned : Planned c s call (.jobs js)) {j : Job} (hj : j ∈ js)
    {before : Entry} {isNew : Bool} (start : startingPoint j.path (s.entry? j.path) j.sources = some (before, isNew))
    {n : String} {e : SyncError} (failed : rebuilt? c j.sources before n = some (.error e)) :
    call.Fails c s j.path n e := by
  obtain ⟨source, listed, answer⟩ := Option.map_eq_some_iff.mp failed
  refine ⟨before, source, ?_, planned.finds hj listed, answer⟩
  obtain ⟨found, -⟩ | ⟨absent, -, u, _, -, new⟩ := Job.startingPoint_eq_some start
  · exact .inl found
  · exact .inr ⟨absent, _, new⟩

/-- Whatever stops a call, a result is handed in that is one of a failure, and it is recorded if anything is. Its
message has the error in it, unless a version of the same entry has failed before and the call has gone on: then the
result may have the message of that failure, and nothing is told of the error. -/
theorem stop_told_unless_version_failed (h : s.Reachable) (stopped : status c s call = .error err) :
    ∃ x ∈ (run c s call).results, (c.world.records x = true → x ∈ (run c s call).recorded) ∧
      (x.Explains err ∨ c.options.isolation = .perVersion ∧ x.success = false ∧
        ∃ q n e, x.entry = some q.toText ∧ call.Fails c s q n e ∧ x.message = some (n ++ ": " ++ e.message)) := by
  suffices told : ∃ x ∈ (run c s call).results,
      x.Explains err ∨ c.options.isolation = .perVersion ∧ x.success = false ∧
        ∃ q n e, x.entry = some q.toText ∧ call.Fails c s q n e ∧ x.message = some (n ++ ": " ++ e.message) by
    obtain ⟨x, hx, told⟩ := told
    exact ⟨x, hx, fun records => List.mem_filter.mpr ⟨hx, records⟩, told⟩
  -- Where all that has been told is success, the error is told on its own.
  have alone {out : List SyncResult} (results : (run c s call).results = closed (.error err) out)
      (success : ∀ x ∈ out, x.success = true) : ∃ x ∈ (run c s call).results, x.Explains err :=
    results ▸ explains_closed success
  obtain results | ⟨a, q, t, plan, reads, ht, results⟩ := stopped_run stopped
  · obtain ⟨x, hx, told⟩ := alone results nofun
    exact ⟨x, hx, .inl told⟩
  · have planned := planned plan
    cases a with
    | deletion name entries =>
      obtain ⟨r, u, out, hu, told, deletion⟩ := Agenda.exec_deleteFrom c name entries q
      obtain ⟨rfl, rfl⟩ := Prod.mk.inj (ht.symm.trans hu)
      obtain ⟨x, hx, told⟩ := alone results (by rw [told, reads.results]; exact deletion.success)
      exact ⟨x, hx, .inl told⟩
    | jobs js =>
      cases read : c.world.lookupFault .entry with
      | some fault =>
        obtain ⟨r, hu⟩ := Job.exec_runAll_of_fault read js q
        obtain ⟨-, rfl⟩ := Prod.mk.inj (ht.symm.trans hu)
        obtain ⟨x, hx, told⟩ := alone results (by rw [reads.results]; exact nofun)
        exact ⟨x, hx, .inl told⟩
      | none =>
        obtain ⟨j, hj, x, told, stop⟩ := Job.tellsStop_runAll read (reads.store ▸ h.wellFormed) planned.plain_jobs
          planned.distinct_jobs ht
        rw [reads.store] at stop
        refine ⟨x, results ▸ mem_closed_of_mem _ told, ?_⟩
        obtain ⟨lenient, before, isNew, n, e, start, failed, same⟩ | said := stop.message.symm
        · have fails := fails_of_tellsStop planned hj start failed
          exact .inr ⟨lenient, stop.failed, j.path, n, e, stop.entry, fails, same⟩
        · exact .inl ⟨stop.failed, said⟩

end Reconcile

namespace Sample

/-- Of two tags, nothing but the manifest can be fetched of the first, and the call is cancelled before the second. -/
def interrupted : Context := { context [] with
  world := { (context []).world with
    remote := {
      list := fun _ => .ok [⟨"v1", .tag, "c1", none⟩, ⟨"v2", .tag, "c2", none⟩]
      file := fun repository n path =>
        if n = "v1" ∧ path ≠ Manifest.path then .error (.remoteFetch repository n path "timed out")
        else (remote []).file repository n path }
    cancelled := fun log => decide (2 ≤ log.count .poll) } }

theorem status_interrupted : Reconcile.status interrupted registered.1 refresh = .error .cancelled := by decide +kernel

theorem silent_interrupted :
    ∀ x ∈ (Reconcile.run interrupted registered.1 refresh).results, ¬ x.Explains .cancelled := by decide +kernel

end Sample

namespace Reconcile

/-- The first tag fails, the call is cancelled before the second, and no result says so. -/
theorem sample_cancellation_untold :
    status Sample.interrupted Sample.registered.1 Sample.refresh = .error .cancelled ∧
      ∀ x ∈ (run Sample.interrupted Sample.registered.1 Sample.refresh).results, ¬ x.Explains .cancelled :=
  ⟨Sample.status_interrupted, Sample.silent_interrupted⟩

/-- What is recorded of that call is the failure of the first tag. -/
theorem sample_earlier_failure_told :
    let o := run Sample.interrupted Sample.registered.1 Sample.refresh
    ∃ x ∈ o.recorded, x.success = false ∧ ∃ q n e, x.entry = some q.toText ∧
      Sample.refresh.Fails Sample.interrupted Sample.registered.1 q n e ∧
        x.message = some (n ++ ": " ++ SyncError.message e) := by
  obtain ⟨x, hx, recorded, told⟩ := stop_told_unless_version_failed Sample.registered.2 Sample.status_interrupted
  obtain ⟨-, failed, earlier⟩ := told.resolve_left (Sample.silent_interrupted x hx)
  exact ⟨x, recorded rfl, failed, earlier⟩

end Reconcile

end WorkflowCatalog
