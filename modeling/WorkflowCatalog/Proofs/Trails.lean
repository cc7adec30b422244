import WorkflowCatalog.Proofs.Calls

/-!
# What a call saves

Each change to an entry that comes to anything is saved at once, and the settings are saved at the end if nothing
has saved them by then. So what is saved for an entry is known beforehand, as far as a call gets with it; and the
catalog after a call is the one before it with all that was saved.
-/
namespace WorkflowCatalog

open Pass

/-- What was saved between two points of a call. -/
structure Pass.Wrote (p q : Progress) (es : List Entry) : Prop where
  saves : q.log.saves = p.log.saves ++ es
  store : q.store = es.foldl Store.save p.store

namespace Pass

variable {p q r : Progress} {es fs : List Entry}

theorem Wrote.refl (p : Progress) : Wrote p p [] := ⟨(List.append_nil _).symm, rfl⟩

theorem Reads.wrote (h : Reads p q) : Wrote p q [] := ⟨h.saves.trans (List.append_nil _).symm, h.store⟩

theorem Wrote.trans (h : Wrote p q es) (k : Wrote q r fs) : Wrote p r (es ++ fs) := by
  refine ⟨?_, ?_⟩
  · rw [k.saves, h.saves, List.append_assoc]
  · rw [k.store, h.store, List.foldl_append]

theorem Reads.then_wrote (h : Reads p q) (k : Wrote q r es) : Wrote p r es := h.wrote.trans k

/-- Results that are handed in are no matter of the catalog. -/
theorem Wrote.told (h : Wrote p q es) (out : List SyncResult) : Wrote p { q with results := out } es := ⟨h.saves, h.store⟩

theorem wrote_save (p : Progress) (e : Entry) : Wrote p { p with store := p.store.save e, log := .save e :: p.log } [e] :=
  ⟨Log.saves_cons _ _, rfl⟩

theorem wrote_failedSave (p : Progress) (e : Entry) : Wrote p { p with log := .failedSave e :: p.log } [] :=
  ⟨Log.saves_cons _ _, rfl⟩

theorem wrote_poll (p : Progress) : Wrote p { p with log := .poll :: p.log } [] := (reads_poll p).wrote

end Pass

/-- Nothing from outside stops a call: it is not cancelled, and no save fails. -/
structure Context.IsQuiet (c : Context) : Prop where
  lasting : ∀ log, c.world.cancelled log = false
  saving : ∀ log, c.world.saveFault log = none

namespace Sync

variable {c : Context} {sources : List VersionSource}

/-- The entry that is saved for a change, if the change comes to anything. -/
def saved? (c : Context) (sources : List VersionSource) (e : Entry) : Change → Option Entry
  | .build _ name => ((rebuilt? c sources e name).bind Except.toOption).map e.upsert
  | .remove name => some (e.remove name)

/-- The entry as it is after several changes. -/
def reached (c : Context) (sources : List VersionSource) (e : Entry) (done : List Change) : Entry :=
  done.foldl (fun e change => (saved? c sources e change).getD e) e

/-- All that is saved for several changes, one after the other. -/
def trail (c : Context) (sources : List VersionSource) : Entry → List Change → List Entry
  | _, [] => []
  | e, change :: changes =>
    (saved? c sources e change).toList ++ trail c sources ((saved? c sources e change).getD e) changes

@[simp] theorem trail_nil (e : Entry) : trail c sources e [] = [] := rfl

@[simp] theorem trail_cons (e : Entry) (change : Change) (changes : List Change) :
    trail c sources e (change :: changes) =
      (saved? c sources e change).toList ++ trail c sources ((saved? c sources e change).getD e) changes := rfl

theorem trail_append (e : Entry) (done rest : List Change) :
    trail c sources e (done ++ rest) = trail c sources e done ++ trail c sources (reached c sources e done) rest := by
  induction done generalizing e with
  | nil => rfl
  | cons change done ih => rw [List.cons_append, trail_cons, ih, trail_cons, List.append_assoc]; rfl

theorem entry_advance (w : Work) (change : Change) :
    (advance c sources w change).entry = (saved? c sources w.entry change).getD w.entry := by
  cases change with
  | remove name => rfl
  | build isNew name =>
    rw [advance_build, saved?]
    cases rebuilt? c sources w.entry name with
    | none => rfl
    | some r => cases r <;> rfl

theorem unsaved_advance (w : Work) (change : Change) :
    (advance c sources w change).unsaved = (w.unsaved && (saved? c sources w.entry change).isNone) := by
  cases change with
  | remove name => exact (Bool.and_false _).symm
  | build isNew name =>
    rw [advance_build, saved?]
    cases rebuilt? c sources w.entry name with
    | none => exact (Bool.and_true _).symm
    | some r =>
      cases r with
      | error e => exact (Bool.and_true _).symm
      | ok v => exact (Bool.and_false _).symm

theorem entry_eq_reached (w : Work) (done : List Change) :
    (progress c sources w done).entry = reached c sources w.entry done := by
  induction done generalizing w with
  | nil => rfl
  | cons change done ih => rw [progress_cons, ih, entry_advance]; rfl

/-- Settings are unsaved as long as nothing is saved. -/
theorem unsaved_progress (w : Work) (done : List Change) :
    (progress c sources w done).unsaved = (w.unsaved && (trail c sources w.entry done).isEmpty) := by
  induction done generalizing w with
  | nil => exact (Bool.and_true _).symm
  | cons change done ih =>
    rw [progress_cons, ih, entry_advance, unsaved_advance, trail_cons]
    cases saved? c sources w.entry change with
    | none => simp
    | some f => simp

variable (c sources) in
/-- Either nothing was saved and the entry is as it was, or the entry was saved last as it is now. -/
theorem trail_cases (e : Entry) (done : List Change) :
    (trail c sources e done = [] ∧ reached c sources e done = e) ∨
      ∃ earlier, trail c sources e done = earlier ++ [reached c sources e done] := by
  induction done generalizing e with
  | nil => exact .inl ⟨rfl, rfl⟩
  | cons change done ih =>
    rw [trail_cons]
    change _ ∨ ∃ earlier, _ = earlier ++ [reached c sources ((saved? c sources e change).getD e) done]
    change (_ ∧ reached c sources ((saved? c sources e change).getD e) done = e) ∨ _
    obtain ⟨nothing, same⟩ | ⟨earlier, last⟩ := ih ((saved? c sources e change).getD e)
    · rw [nothing, same, List.append_nil]
      cases saved? c sources e change with
      | none => exact .inl ⟨rfl, rfl⟩
      | some f => exact .inr ⟨[], rfl⟩
    · exact .inr ⟨(saved? c sources e change).toList ++ earlier, by rw [last, List.append_assoc]⟩

/-- What each change keeps up holds of all that is saved, and each entry is saved for a change. -/
theorem mem_trail {P : Entry → Prop} {changes : List Change}
    (step : ∀ e change f, change ∈ changes → P e → saved? c sources e change = some f → P f) {e : Entry} (he : P e) :
    P (reached c sources e changes) ∧ ∀ f ∈ trail c sources e changes,
      P f ∧ ∃ e, P e ∧ ∃ change ∈ changes, saved? c sources e change = some f := by
  induction changes generalizing e with
  | nil => exact ⟨he, fun f hf => absurd hf List.not_mem_nil⟩
  | cons change changes ih =>
    have others := fun e ch f hc => step e ch f (List.mem_cons_of_mem change hc)
    have next : P ((saved? c sources e change).getD e) := by
      cases hs : saved? c sources e change with
      | none => exact he
      | some f => exact step e change f List.mem_cons_self he hs
    obtain ⟨last, members⟩ := ih others next
    refine ⟨last, fun f hf => ?_⟩
    rcases List.mem_append.mp hf with hf | hf
    · have saved : saved? c sources e change = some f := Option.mem_toList.mp hf
      exact ⟨step e change f List.mem_cons_self he saved, e, he, change, List.mem_cons_self, saved⟩
    · obtain ⟨hf, e, he, ch, hc, saved⟩ := members f hf
      exact ⟨hf, e, he, ch, List.mem_cons_of_mem change hc, saved⟩

/-- A build that fails ends the call if the policy is strict. -/
def Halts (c : Context) (sources : List VersionSource) (e : Entry) (change : Change) : Prop :=
  c.options.isolation = .failFast ∧
    ∃ isNew name err, change = .build isNew name ∧ rebuilt? c sources e name = some (.error err)

/-- None of the changes ends the call. -/
def Passes (c : Context) (sources : List VersionSource) : Entry → List Change → Prop
  | _, [] => True
  | e, change :: changes =>
    ¬ Halts c sources e change ∧ Passes c sources ((saved? c sources e change).getD e) changes

theorem passes_append {e : Entry} {done rest : List Change} (h : Passes c sources e (done ++ rest)) :
    Passes c sources e done ∧ Passes c sources (reached c sources e done) rest := by
  induction done generalizing e with
  | nil => exact ⟨trivial, h⟩
  | cons change done ih =>
    obtain ⟨first, others⟩ := h
    exact ⟨⟨first, (ih others).1⟩, (ih others).2⟩

/-- Why a run through changes stops before one of them is made. -/
inductive Stops (c : Context) (sources : List VersionSource) (e : Entry) : Change → SyncError → Prop
  | cancelled {change : Change} {log : Log} (cancelled : c.world.cancelled log = true) :
      Stops c sources e change .cancelled
  | fault {change : Change} {log : Log} {err : SyncError} (fault : c.world.saveFault log = some err) :
      Stops c sources e change err
  | failed {change : Change} {err : SyncError} (halts : Halts c sources e change) : Stops c sources e change err

/-- Without disturbance only a failed build stops a run. -/
theorem Stops.halts {e : Entry} {change : Change} {err : SyncError} (h : Stops c sources e change err)
    (quiet : c.IsQuiet) : Halts c sources e change := by
  cases h with
  | cancelled cancelled => exact nomatch cancelled.symm.trans (quiet.lasting _)
  | fault fault => exact nomatch fault.symm.trans (quiet.saving _)
  | failed halts => exact halts

theorem wrote_saved (w : Work) (e : Entry) (r : SyncResult) (p : Progress) :
    ∃ q, (exec (saved c w e r) p = (.ok ⟨e, false, r⟩, q) ∧ Wrote p q [e]) ∨
      ∃ err log, exec (saved c w e r) p = (.error err, q) ∧ Wrote p q [] ∧ c.world.saveFault log = some err := by
  unfold saved
  cases hf : c.world.saveFault p.log with
  | none =>
    rw [exec_bind_ok (exec_save hf e)]
    exact ⟨_, .inl ⟨exec_pure _ _, wrote_save p e⟩⟩
  | some err =>
    rw [exec_bind_ok (exec_save_failed hf e)]
    exact ⟨_, .inr ⟨err, p.log, exec_stop _ _ _, (wrote_failedSave p e).told _, hf⟩⟩

variable (c sources) in
/-- A change saves what it comes to, or the call stops before it. -/
theorem wrote_apply (w : Work) (change : Change) (p : Progress) :
    ∃ q, (exec (apply c sources w change) p = (.ok (advance c sources w change), q) ∧
        Wrote p q (saved? c sources w.entry change).toList ∧ ¬ Halts c sources w.entry change) ∨
      ∃ err, exec (apply c sources w change) p = (.error err, q) ∧ Wrote p q [] ∧
        Stops c sources w.entry change err := by
  cases change with
  | remove name =>
    obtain ⟨q, ⟨hx, wrote⟩ | ⟨err, log, hx, wrote, fault⟩⟩ := wrote_saved w (w.entry.remove name)
      { w.result with removed := w.result.removed ++ [name] } p
    · refine ⟨q, .inl ⟨hx, wrote, fun h => ?_⟩⟩
      obtain ⟨-, _, _, _, build, -⟩ := h
      cases build
    · exact ⟨q, .inr ⟨err, hx, wrote, .fault fault⟩⟩
  | build isNew name =>
    -- A build halts only by what it comes to.
    have halts (h : Halts c sources w.entry (.build isNew name)) : c.options.isolation = .failFast ∧
        ∃ err, rebuilt? c sources w.entry name = some (.error err) := by
      obtain ⟨strict, _, _, err, same, failed⟩ := h
      obtain ⟨rfl, rfl⟩ := Change.build.inj same
      exact ⟨strict, err, failed⟩
    cases hs : sources.find? fun s => s.remote.name == name with
    | none =>
      have unlisted : rebuilt? c sources w.entry name = none := by rw [rebuilt?, hs]; rfl
      rw [advance_unlisted hs, saved?, unlisted]
      refine ⟨p, .inl ⟨by simp only [apply, hs, exec_pure], .refl p, fun h => ?_⟩⟩
      obtain ⟨-, err, failed⟩ := halts h
      cases unlisted.symm.trans failed
    | some s =>
      have steady := Build.steady_version c w.entry s
      have read := exec_attempt (Build.version c w.entry s) p
      rw [steady.answer p.log] at read
      have reads : Reads p { p with log := ((Build.version c w.entry s).run.run p.log).2 } :=
        ⟨rfl, rfl, steady.saves p.log⟩
      have rebuilt : rebuilt? c sources w.entry name = some (Build.version c w.entry s).answer := by
        rw [rebuilt?, hs]
        rfl
      cases hv : (Build.version c w.entry s).answer with
      | ok v =>
        rw [hv] at read rebuilt
        have run : exec (apply c sources w (.build isNew name)) p =
            exec (saved c w (w.entry.upsert v) (noted w.result isNew v.name))
              { p with log := ((Build.version c w.entry s).run.run p.log).2 } := by
          simp only [apply, hs, exec_bind_ok read]
        rw [advance_built hs hv, run, saved?, rebuilt]
        obtain ⟨q, ⟨hx, wrote⟩ | ⟨err, log, hx, wrote, fault⟩⟩ := wrote_saved w (w.entry.upsert v)
          (noted w.result isNew v.name) { p with log := ((Build.version c w.entry s).run.run p.log).2 }
        · refine ⟨q, .inl ⟨hx, reads.then_wrote wrote, fun h => ?_⟩⟩
          obtain ⟨-, err, failed⟩ := halts h
          cases rebuilt.symm.trans failed
        · exact ⟨q, .inr ⟨err, hx, reads.then_wrote wrote, .fault fault⟩⟩
      | error e =>
        rw [hv] at read rebuilt
        have run : exec (apply c sources w (.build isNew name)) p =
            exec (failed c w name e) { p with log := ((Build.version c w.entry s).run.run p.log).2 } := by
          simp only [apply, hs, exec_bind_ok read]
        rw [run, advance_failed hs hv, saved?, rebuilt]
        unfold failed
        cases policy : c.options.isolation with
        | perVersion =>
          refine ⟨_, .inl ⟨rfl, reads.wrote, fun h => ?_⟩⟩
          cases policy.symm.trans (halts h).1
        | failFast => exact ⟨_, .inr ⟨e, rfl, reads.wrote.told _, .failed ⟨policy, _, _, e, rfl, rebuilt⟩⟩⟩

variable (c sources) in
/-- A run through changes saves what those of a prefix come to: all of them, unless the call stops. -/
theorem wrote_applyAll (w : Work) (changes : List Change) (p : Progress) :
    ∃ q, (exec (applyAll c sources w changes) p = (.ok (progress c sources w changes), q) ∧
        Wrote p q (trail c sources w.entry changes) ∧ Passes c sources w.entry changes) ∨
      ∃ err done change rest, exec (applyAll c sources w changes) p = (.error err, q) ∧
        changes = done ++ change :: rest ∧ Wrote p q (trail c sources w.entry done) ∧
        Passes c sources w.entry done ∧ Stops c sources (reached c sources w.entry done) change err := by
  induction changes generalizing w p with
  | nil => exact ⟨p, .inl ⟨rfl, .refl p, trivial⟩⟩
  | cons change changes ih =>
    let polled : Progress := { p with log := .poll :: p.log }
    cases hc : c.world.cancelled polled.log with
    | true =>
      have run : exec (applyAll c sources w (change :: changes)) p =
          exec (stop w.result .cancelled : Pass Work) polled := by
        rw [applyAll, exec_bind_ok (exec_poll c p), hc]
        rfl
      rw [run]
      exact ⟨_, .inr ⟨.cancelled, [], change, changes, rfl, rfl, (wrote_poll p).told _, trivial, .cancelled hc⟩⟩
    | false =>
      have run : exec (applyAll c sources w (change :: changes)) p =
          exec (apply c sources w change >>= fun x => applyAll c sources x changes) polled := by
        rw [applyAll, exec_bind_ok (exec_poll c p), hc]
        rfl
      rw [run]
      obtain ⟨q, ⟨hx, first, goes⟩ | ⟨err, hx, wrote, stops⟩⟩ := wrote_apply c sources w change polled
      · rw [exec_bind_ok hx]
        have first : Wrote p q (saved? c sources w.entry change).toList := (wrote_poll p).trans first
        obtain ⟨t, ⟨kx, others, go⟩ | ⟨err, done, last, rest, kx, rfl, others, go, stops⟩⟩ :=
          ih (advance c sources w change) q
        · rw [entry_advance] at others go
          exact ⟨t, .inl ⟨kx, first.trans others, goes, go⟩⟩
        · rw [entry_advance] at others go stops
          exact ⟨t, .inr ⟨err, change :: done, last, rest, kx, rfl, first.trans others, ⟨goes, go⟩, stops⟩⟩
      · rw [exec_bind_error hx]
        exact ⟨q, .inr ⟨err, [], change, changes, rfl, rfl, (wrote_poll p).trans wrote, trivial, stops⟩⟩

/-- What is saved after all changes: the settings, if nothing has saved them. -/
def closing (isNew : Bool) (w : Work) : List Entry :=
  if w.unsaved && !(isNew && w.entry.versions.isEmpty) then [w.entry] else []

theorem closing_progress (isNew : Bool) (w : Work) (done : List Change) :
    closing isNew (progress c sources w done) =
      if w.unsaved && (trail c sources w.entry done).isEmpty &&
          !(isNew && (reached c sources w.entry done).versions.isEmpty) then
        [reached c sources w.entry done]
      else [] := by
  rw [closing, unsaved_progress, entry_eq_reached]

theorem wrote_finish (c : Context) (isNew : Bool) (w : Work) (p : Progress) :
    ∃ q, (exec (finish c isNew w) p = (.ok (), q) ∧ Wrote p q (closing isNew w)) ∨
      ∃ err log, exec (finish c isNew w) p = (.error err, q) ∧ Wrote p q [] ∧ c.world.saveFault log = some err := by
  unfold finish closing
  split
  · cases hf : c.world.saveFault p.log with
    | none =>
      rw [exec_bind_ok (exec_save hf w.entry)]
      exact ⟨_, .inl ⟨exec_push _ _, (wrote_save p w.entry).told _⟩⟩
    | some err =>
      rw [exec_bind_ok (exec_save_failed hf w.entry)]
      exact ⟨_, .inr ⟨err, p.log, exec_stop _ _ _, (wrote_failedSave p w.entry).told _, hf⟩⟩
  · exact ⟨_, .inl ⟨exec_push _ _, (Wrote.refl p).told _⟩⟩

end Sync

namespace Job

open Sync

variable {c : Context} {j : Job} {old : Option Entry} {r : Except SyncError Unit} {es : List Entry}

/-- All that is saved for an entry once its differences from the listing are known. -/
def steps (c : Context) (j : Job) (before : Entry) (isNew : Bool) (d : VersionDiff) : List Entry :=
  trail c j.sources (withSettings before j.sources) d.changes ++
    closing isNew (progress c j.sources (j.firstWork before d) d.changes)

/-- How a job may end, given the entry on record: whether the call goes on, and all that is saved. -/
inductive Ran (c : Context) (j : Job) (old : Option Entry) : Except SyncError Unit → List Entry → Prop
  | unread {err : SyncError} (fault : c.world.lookupFault .entry = some err) : Ran c j old (.error err) []
  | undeclared (read : c.world.lookupFault .entry = none) (absent : startingPoint j.path old j.sources = none) :
      Ran c j old (.ok ()) []
  | refused {before : Entry} {isNew : Bool} {err : SyncError} (read : c.world.lookupFault .entry = none)
      (start : startingPoint j.path old j.sources = some (before, isNew))
      (compared : diff (withSettings before j.sources).versions j.listing j.mode j.forced = .error err) :
      Ran c j old (.error err) []
  | stopped {before : Entry} {isNew : Bool} {d : VersionDiff} {done rest : List Change} {change : Change}
      {err : SyncError} (read : c.world.lookupFault .entry = none) (begins : j.Begins old before isNew d)
      (changes : d.changes = done ++ change :: rest) (passed : Passes c j.sources (withSettings before j.sources) done)
      (stops : Stops c j.sources (reached c j.sources (withSettings before j.sources) done) change err) :
      Ran c j old (.error err) (trail c j.sources (withSettings before j.sources) done)
  | unfinished {before : Entry} {isNew : Bool} {d : VersionDiff} {log : Log} {err : SyncError}
      (read : c.world.lookupFault .entry = none) (begins : j.Begins old before isNew d)
      (fault : c.world.saveFault log = some err) :
      Ran c j old (.error err) (trail c j.sources (withSettings before j.sources) d.changes)
  | finished {before : Entry} {isNew : Bool} {d : VersionDiff} (read : c.world.lookupFault .entry = none)
      (begins : j.Begins old before isNew d) (passed : Passes c j.sources (withSettings before j.sources) d.changes) :
      Ran c j old (.ok ()) (j.steps c before isNew d)

theorem diff_of_complete {listing : RemoteListing} (complete : listing.complete = true) (vs : List Version)
    (mode : DiffMode) (forced : List String) : ∃ d, diff vs listing mode forced = .ok d := by
  unfold diff
  rw [if_neg fun h => Bool.false_ne_true (h.2.symm.trans complete)]
  exact ⟨_, rfl⟩

/-- Without disturbance, a job that has an entry to work on makes all changes, or gives up at a build that fails. -/
theorem Ran.begun (h : j.Ran c old r es) (quiet : c.IsQuiet) (read : c.world.lookupFault .entry = none)
    (start : startingPoint j.path old j.sources ≠ none) (complete : j.listing.complete = true) :
    ∃ before isNew d, j.Begins old before isNew d ∧
      ((r = .ok () ∧ Passes c j.sources (withSettings before j.sources) d.changes ∧ es = j.steps c before isNew d) ∨
        r ≠ .ok () ∧ ∃ done change rest, d.changes = done ++ change :: rest ∧
          Halts c j.sources (reached c j.sources (withSettings before j.sources) done) change ∧
          Passes c j.sources (withSettings before j.sources) done ∧
          es = trail c j.sources (withSettings before j.sources) done) := by
  cases h with
  | unread fault => exact nomatch fault.symm.trans read
  | undeclared _ absent => exact absurd absent start
  | @refused before _ _ _ _ compared =>
    obtain ⟨d, known⟩ := diff_of_complete complete (withSettings before j.sources).versions j.mode j.forced
    exact nomatch compared.symm.trans known
  | stopped _ begins changes passed stops =>
    exact ⟨_, _, _, begins, .inr ⟨nofun, _, _, _, changes, stops.halts quiet, passed, rfl⟩⟩
  | unfinished _ _ fault => exact nomatch fault.symm.trans (quiet.saving _)
  | finished _ begins passed => exact ⟨_, _, _, begins, .inl ⟨rfl, passed, rfl⟩⟩

/-- What a job saves is saved for one of the changes, or for the settings when all changes are made. -/
theorem Ran.mem (h : j.Ran c old r es) {f : Entry} (hf : f ∈ es) :
    ∃ before isNew d, j.Begins old before isNew d ∧
      (f ∈ trail c j.sources (withSettings before j.sources) d.changes ∨
        f = reached c j.sources (withSettings before j.sources) d.changes ∧
          (isNew && f.versions.isEmpty) = false) := by
  cases h with
  | unread => exact absurd hf List.not_mem_nil
  | undeclared => exact absurd hf List.not_mem_nil
  | refused => exact absurd hf List.not_mem_nil
  | stopped _ begins changes =>
    refine ⟨_, _, _, begins, .inl ?_⟩
    rw [changes, trail_append]
    exact List.mem_append_left _ hf
  | unfinished _ begins => exact ⟨_, _, _, begins, .inl hf⟩
  | finished _ begins =>
    refine ⟨_, _, _, begins, ?_⟩
    rcases List.mem_append.mp hf with hf | hf
    · exact .inl hf
    · rw [closing_progress] at hf
      split at hf
      · rename_i unclosed
        obtain rfl := List.mem_singleton.mp hf
        simp only [Bool.and_eq_true, Bool.not_eq_true'] at unclosed
        exact .inr ⟨rfl, unclosed.2⟩
      · exact absurd hf List.not_mem_nil

theorem wrote_changes {before : Entry} {isNew : Bool} {d : VersionDiff} (read : c.world.lookupFault .entry = none)
    (begins : j.Begins old before isNew d) (p : Progress) :
    ∃ r q es, exec (applyAll c j.sources (j.firstWork before d) d.changes >>= finish c isNew) p = (r, q) ∧
      Wrote p q es ∧ j.Ran c old r es := by
  obtain ⟨q, ⟨hx, wrote, passed⟩ | ⟨err, done, change, rest, hx, changes, wrote, passed, stops⟩⟩ :=
    wrote_applyAll c j.sources (j.firstWork before d) d.changes p
  · rw [exec_bind_ok hx]
    obtain ⟨t, ⟨kx, closed⟩ | ⟨err, log, kx, closed, fault⟩⟩ :=
      wrote_finish c isNew (progress c j.sources (j.firstWork before d) d.changes) q
    · exact ⟨_, t, _, kx, wrote.trans closed, .finished read begins passed⟩
    · have wrote := wrote.trans closed
      rw [List.append_nil] at wrote
      exact ⟨_, t, _, kx, wrote, .unfinished read begins fault⟩
  · rw [exec_bind_error hx]
    exact ⟨_, q, _, rfl, wrote, .stopped read begins changes passed stops⟩

/-- Where nothing differs and the settings are those on record, nothing is saved. -/
theorem steps_of_idle {before : Entry} {isNew : Bool} {d : VersionDiff} (empty : d.isEmpty = true)
    (settled : withSettings before j.sources = before) : j.steps c before isNew d = [] := by
  rw [steps, changes_of_isEmpty empty, trail_nil, progress_nil, closing, firstWork, settled]
  simp

theorem wrote_run (c : Context) (j : Job) (p : Progress) :
    ∃ r q es, exec (j.run c) p = (r, q) ∧ Wrote p q es ∧ j.Ran c (p.store.entry? j.path) r es := by
  unfold run Sync.entry
  cases hf : c.world.lookupFault .entry with
  | some err =>
    rw [exec_bind_error (show exec (look c .entry fun s => s.entry? j.path) p = (.error err, p) by rw [exec_look, hf])]
    exact ⟨_, p, [], rfl, .refl p, .unread hf⟩
  | none =>
    rw [exec_bind_ok (show exec (look c .entry fun s => s.entry? j.path) p = (.ok _, p) by rw [exec_look, hf])]
    cases hs : startingPoint j.path (p.store.entry? j.path) j.sources with
    | none => exact ⟨_, p, [], rfl, .refl p, .undeclared hf hs⟩
    | some begun =>
      obtain ⟨before, isNew⟩ := begun
      cases hd : diff (withSettings before j.sources).versions j.listing j.mode j.forced with
      | error err =>
        simp only [hd]
        exact ⟨_, _, [], exec_stop _ _ _, (Wrote.refl p).told _, .refused hf hs hd⟩
      | ok d =>
        simp only [hd]
        have begins : j.Begins (p.store.entry? j.path) before isNew d := ⟨hs, hd⟩
        split
        · rename_i idle
          simp only [Bool.and_eq_true, Bool.not_eq_true', decide_eq_false_iff_not, Decidable.not_not] at idle
          have finished : j.Ran c (p.store.entry? j.path) (.ok ()) [] :=
            steps_of_idle (c := c) idle.1 idle.2 ▸ .finished hf begins (by rw [changes_of_isEmpty idle.1]; trivial)
          split
          · exact ⟨_, p, [], rfl, .refl p, finished⟩
          · exact ⟨_, _, [], exec_push _ _, (Wrote.refl p).told _, finished⟩
        · exact wrote_changes hf begins p

/-- How several jobs may end, one after the other, and all that is saved. -/
inductive Runs (c : Context) : List Job → Store → Except SyncError Unit → List Entry → Prop
  | nil (s : Store) : Runs c [] s (.ok ()) []
  | cons {j : Job} {js : List Job} {s : Store} {r : Except SyncError Unit} {es fs : List Entry}
      (first : j.Ran c (s.entry? j.path) (.ok ()) es) (rest : Runs c js (es.foldl Store.save s) r fs) :
      Runs c (j :: js) s r (es ++ fs)
  | stop {j : Job} {js : List Job} {s : Store} {err : SyncError} {es : List Entry}
      (first : j.Ran c (s.entry? j.path) (.error err) es) : Runs c (j :: js) s (.error err) es

theorem wrote_runAll (c : Context) (js : List Job) (p : Progress) :
    ∃ r q es, exec (runAll c js) p = (r, q) ∧ Wrote p q es ∧ Runs c js p.store r es := by
  induction js generalizing p with
  | nil => exact ⟨_, p, [], rfl, .refl p, .nil _⟩
  | cons j js ih =>
    obtain ⟨r, q, es, hx, wrote, ran⟩ := wrote_run c j p
    cases r with
    | error e =>
      rw [runAll, exec_bind_error hx]
      exact ⟨_, q, es, rfl, wrote, .stop ran⟩
    | ok _ =>
      rw [runAll, exec_bind_ok hx]
      obtain ⟨r, t, fs, kx, others, runs⟩ := ih q
      rw [wrote.store] at runs
      exact ⟨r, t, es ++ fs, kx, wrote.trans others, .cons ran runs⟩

end Job

/-! ## Deletions -/

/-- The entry that is saved for the deletion of a version, if it has the version and the version is not frozen. -/
def Entry.without? (name : String) (e : Entry) : Option Entry :=
  match e.version? name with
  | some v => if v.frozen then none else some (e.remove name)
  | none => none

theorem Entry.eq_of_without? {name : String} {e f : Entry} (h : e.without? name = some f) : f = e.remove name := by
  unfold without? at h
  split at h
  · split at h
    · exact nomatch h
    · exact (Option.some.inj h).symm
  · exact nomatch h

/-- How the deletion of a version from entries may go, and all that is saved. -/
inductive Deletes (c : Context) (name : String) : List Entry → Except SyncError Unit → List Entry → Prop
  | nil : Deletes c name [] (.ok ()) []
  | cons {e : Entry} {es fs : List Entry} {r : Except SyncError Unit} (rest : Deletes c name es r fs) :
      Deletes c name (e :: es) r ((e.without? name).toList ++ fs)
  | failed {e : Entry} {es : List Entry} {log : Log} {err : SyncError} (fault : c.world.saveFault log = some err) :
      Deletes c name (e :: es) (.error err) []

theorem wrote_deleteFrom (c : Context) (name : String) (entries : List Entry) (p : Progress) :
    ∃ r q es, exec (Reconcile.deleteFrom c name entries) p = (r, q) ∧ Wrote p q es ∧ Deletes c name entries r es := by
  induction entries generalizing p with
  | nil => exact ⟨_, p, [], rfl, .refl p, .nil⟩
  | cons e es ih =>
    cases hv : e.version? name with
    | none =>
      simp only [Reconcile.deleteFrom, hv]
      obtain ⟨r, q, fs, hx, wrote, deletes⟩ := ih p
      have cut : e.without? name = none := by rw [Entry.without?, hv]
      exact ⟨r, q, _, hx, by rwa [cut], .cons deletes⟩
    | some v =>
      simp only [Reconcile.deleteFrom, hv]
      cases hf : v.frozen with
      | true =>
        simp only [if_true]
        rw [exec_bind_ok (exec_push _ p)]
        obtain ⟨r, q, fs, hx, wrote, deletes⟩ :=
          ih { p with results := p.results ++ [{ SyncResult.forEntry e.path with skippedFrozen := [name] }] }
        have cut : e.without? name = none := by simp only [Entry.without?, hv, hf, if_true]
        exact ⟨r, q, _, hx, by rw [cut]; exact ((Wrote.refl p).told _).trans wrote, .cons deletes⟩
      | false =>
        simp only [Bool.false_eq_true, if_false]
        cases hs : c.world.saveFault p.log with
        | some err =>
          rw [exec_bind_ok (exec_save_failed hs _)]
          exact ⟨_, _, [], rfl, wrote_failedSave p _, .failed hs⟩
        | none =>
          rw [exec_bind_ok (exec_save hs _)]
          dsimp only
          rw [exec_bind_ok (exec_push _ _)]
          obtain ⟨r, q, fs, hx, wrote, deletes⟩ := ih ⟨p.store.save (e.remove name), .save (e.remove name) :: p.log,
            p.results ++ [{ SyncResult.forEntry e.path with removed := [name] }]⟩
          have cut : e.without? name = some (e.remove name) := by
            simp only [Entry.without?, hv, hf, Bool.false_eq_true, if_false]
          exact ⟨r, q, _, hx, by rw [cut]; exact ((wrote_save p (e.remove name)).told _).trans wrote, .cons deletes⟩

/-! ## Calls -/

/-- All that may come of an agenda: how the call ends, and what is saved. -/
inductive Agenda.Ran (c : Context) : Agenda → Store → Except SyncError Unit → List Entry → Prop
  | jobs {js : List Job} {s : Store} {r : Except SyncError Unit} {es : List Entry} (runs : Job.Runs c js s r es) :
      Ran c (.jobs js) s r es
  | deletion {name : String} {entries : List Entry} {s : Store} {r : Except SyncError Unit} {es : List Entry}
      (deletes : Deletes c name entries r es) : Ran c (.deletion name entries) s r es

theorem Agenda.wrote_run (c : Context) (a : Agenda) (p : Progress) :
    ∃ r q es, exec (a.run c) p = (r, q) ∧ Wrote p q es ∧ a.Ran c p.store r es := by
  cases a with
  | jobs js =>
    obtain ⟨r, q, es, hx, wrote, runs⟩ := Job.wrote_runAll c js p
    exact ⟨r, q, es, hx, wrote, .jobs runs⟩
  | deletion name entries =>
    obtain ⟨r, q, es, hx, wrote, deletes⟩ := wrote_deleteFrom c name entries p
    exact ⟨r, q, es, hx, wrote, .deletion deletes⟩

namespace Reconcile

/-- What a call saves: nothing, if there is nothing to be done for it, or what comes of its agenda. -/
inductive Saved (c : Context) (s : Store) (call : Call) : List Entry → Prop
  | nothing {e : SyncError} (planned : plan c s call = .error e) : Saved c s call []
  | acted {a : Agenda} {r : Except SyncError Unit} {es : List Entry} (planned : plan c s call = .ok a)
      (ran : a.Ran c s r es) : Saved c s call es

theorem wrote_run (c : Context) (s : Store) (call : Call) :
    Wrote ⟨s, [], []⟩ ⟨(run c s call).store, (run c s call).log, []⟩ (run c s call).log.saves ∧
      Saved c s call (run c s call).log.saves := by
  obtain ⟨q, reads, hx⟩ := performs_pass c call ⟨s, [], []⟩
  have ends {r : Except SyncError Unit} {p : Progress} {es : List Entry} (h : exec (pass c call) ⟨s, [], []⟩ = (r, p))
      (wrote : Wrote ⟨s, [], []⟩ p es) : es = (run c s call).log.saves ∧
        Wrote ⟨s, [], []⟩ ⟨(run c s call).store, (run c s call).log, []⟩ es := by
    have log : (run c s call).log = p.log := by
      change (exec (pass c call) ⟨s, [], []⟩).2.log = _
      rw [h]
    rw [log, (run_of_exec h).1]
    exact ⟨wrote.saves.symm, wrote.saves, wrote.store⟩
  dsimp only at hx
  cases hp : plan c s call with
  | error e =>
    rw [hp] at hx
    obtain ⟨same, wrote⟩ := ends hx reads.wrote
    rw [← same]
    exact ⟨wrote, .nothing hp⟩
  | ok a =>
    obtain ⟨r, t, es, ha, wrote, ran⟩ := Agenda.wrote_run c a q
    rw [hp] at hx
    rw [reads.store] at ran
    obtain ⟨same, wrote⟩ := ends (hx.trans ha) (reads.then_wrote wrote)
    rw [← same]
    exact ⟨wrote, .acted hp ran⟩

theorem saved_run (c : Context) (s : Store) (call : Call) : Saved c s call (run c s call).log.saves :=
  (wrote_run c s call).2

/-- The catalog after a call is the one before it with all that was saved. -/
theorem store_run (c : Context) (s : Store) (call : Call) :
    (run c s call).store = (run c s call).log.saves.foldl Store.save s :=
  (wrote_run c s call).1.store

end Reconcile

end WorkflowCatalog
