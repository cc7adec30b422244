import WorkflowCatalog.Proofs.Interruption

/-!
# Where a save fails

A save that fails ends the call, and until then nothing depends on whether it will. So if the save fails which comes
after so many others, these are all that the call saves, and they are the first ones of the call in which no save fails.
`Pass.CutShort` says so for a part of a call. There is one rule for each primitive, and one for a part that is followed
by another; the rest follows the text of the call.
-/
namespace WorkflowCatalog

namespace Pass

variable {α β : Type}

/-- The second part of a call goes the same way as the first one if that has made no more than so many saves at its end.
Otherwise it stops when it has made so many of them. -/
structure CutShort (made : Nat) (x y : Pass α) : Prop where
  grows : ∀ p, p.log.saves <+: (exec x p).2.log.saves
  along : ∀ p q, Reads p q → (exec x p).2.log.saves.length ≤ made →
    ∃ q', exec y q = ((exec x p).1, q') ∧ Reads (exec x p).2 q'
  stops : ∀ p q, Reads p q → p.log.saves.length ≤ made → made < (exec x p).2.log.saves.length →
    ∃ err q', exec y q = (.error err, q') ∧ q'.log.saves = (exec x p).2.log.saves.take made

variable {made : Nat} {x y : Pass α} {c : Context} {err : SyncError}

/-! ## Rules -/

theorem cutShort_of_saves (saves : ∀ p, (exec x p).2.log.saves = p.log.saves)
    (along : ∀ p q, Reads p q → ∃ q', exec y q = ((exec x p).1, q') ∧ Reads (exec x p).2 q') : CutShort made x y where
  grows p := (saves p).symm ▸ List.prefix_rfl
  along p q same _ := along p q same
  stops p _ _ few many := absurd (saves p ▸ many) (Nat.not_lt.mpr few)

/-- What is read is the same in both. -/
theorem cutShort_reading {f : Store → Except SyncError α} (hx : Reading x f) (hy : Reading y f) :
    CutShort made x y := by
  refine cutShort_of_saves (fun p => ?_) fun p q same => ?_
  · obtain ⟨p', reads, ends⟩ := hx p
    rw [ends]
    exact reads.saves
  · obtain ⟨p', reads, ends⟩ := hx p
    obtain ⟨q', reads', ends'⟩ := hy q
    rw [ends, ends', same.store]
    exact ⟨q', rfl, (reads.symm.trans same).trans reads'⟩

theorem cutShort_pure (a : α) : CutShort made (pure a) (pure a) := cutShort_reading (reading_pure a) (reading_pure a)

theorem cutShort_throw (e : SyncError) : CutShort made (throw e : Pass α) (throw e) :=
  cutShort_reading (reading_throw e) (reading_throw e)

theorem cutShort_push (r : SyncResult) : CutShort made (push r) (push r) :=
  cutShort_of_saves (fun _ => rfl) fun _ _ same => ⟨_, rfl, same.store, congrArg (· ++ [r]) same.results, same.saves⟩

theorem CutShort.bind {f g : α → Pass β} (first : CutShort made x y) (rest : ∀ a, CutShort made (f a) (g a)) :
    CutShort made (x >>= f) (y >>= g) where
  grows p := by
    have grown := first.grows p
    rcases ran : exec x p with ⟨_ | a, p'⟩
    · rw [ran] at grown
      rw [exec_bind_error ran]
      exact grown
    · rw [ran] at grown
      rw [exec_bind_ok ran]
      exact grown.trans ((rest a).grows p')
  along p q same few := by
    have along := first.along p q same
    rcases ran : exec x p with ⟨_ | a, p'⟩
    · rw [ran] at along
      rw [exec_bind_error ran] at few ⊢
      obtain ⟨q', ends, same'⟩ := along few
      exact ⟨q', exec_bind_error ends g, same'⟩
    · rw [ran] at along
      rw [exec_bind_ok ran] at few ⊢
      obtain ⟨q', ends, same'⟩ := along (Nat.le_trans ((rest a).grows p').length_le few)
      rw [exec_bind_ok ends]
      exact (rest a).along p' q' same' few
  stops p q same few many := by
    have along := first.along p q same
    have stops := first.stops p q same few
    rcases ran : exec x p with ⟨_ | a, p'⟩
    · rw [ran] at stops
      rw [exec_bind_error ran] at many ⊢
      obtain ⟨err, q', ends, saves⟩ := stops many
      exact ⟨err, q', exec_bind_error ends g, saves⟩
    · rw [ran] at along stops
      rw [exec_bind_ok ran] at many ⊢
      by_cases few' : p'.log.saves.length ≤ made
      · obtain ⟨q', ends, same'⟩ := along few'
        rw [exec_bind_ok ends]
        exact (rest a).stops p' q' same' few' many
      · -- What is saved by what follows comes behind the saves that are made.
        obtain ⟨err, q', ends, saves⟩ := stops (Nat.not_le.mp few')
        obtain ⟨more, grown⟩ := (rest a).grows p'
        refine ⟨err, q', exec_bind_error ends g, ?_⟩
        rw [saves, ← grown, List.take_append_of_le_length (Nat.le_of_not_le few')]

theorem cutShort_stop (r : SyncResult) (e : SyncError) : CutShort made (stop r e : Pass α) (stop r e) :=
  (cutShort_push _).bind fun _ => cutShort_throw e

/-- One of the saves is the one that fails, and what follows a failure must end the call without another save. -/
theorem cutShort_save (saving : ∀ log, c.world.saveFault log = none) (e : Entry) {f g : Option SyncError → Pass α}
    (rest : CutShort made (f none) (g none))
    (fails : ∀ err q, ∃ err' q', exec (g (some err)) q = (.error err', q') ∧ q'.log.saves = q.log.saves) :
    CutShort made (save c e >>= f) (save (c.failingAfter made err) e >>= g) := by
  let after (p : Progress) : Progress := { p with store := p.store.save e, log := .save e :: p.log }
  have ran (p : Progress) : exec (save c e >>= f) p = exec (f none) (after p) :=
    exec_bind_ok (exec_save (saving p.log) e) f
  have saved (p : Progress) : (after p).log.saves = p.log.saves ++ [e] := Log.saves_cons _ _
  have same_after {p q : Progress} (same : Reads p q) : Reads (after p) (after q) :=
    ⟨congrArg (·.save e) same.store, same.results, by rw [saved, saved, same.saves]⟩
  have ran' {q : Progress} (few : q.log.saves.length ≠ made) :
      exec (save (c.failingAfter made err) e >>= g) q = exec (g none) (after q) :=
    exec_bind_ok (exec_save (if_neg few) e) g
  have grows (p : Progress) : p.log.saves ++ [e] <+: (exec (f none) (after p)).2.log.saves :=
    saved p ▸ rest.grows (after p)
  constructor
  case grows =>
    intro p
    rw [ran]
    exact (List.prefix_append _ _).trans (grows p)
  case along =>
    intro p q same few
    rw [ran] at few ⊢
    have fewer := Nat.le_trans (grows p).length_le few
    rw [List.length_append, List.length_singleton] at fewer
    rw [ran' (by rw [same.saves]; omega)]
    exact rest.along _ _ (same_after same) few
  case stops =>
    intro p q same few many
    rw [ran] at many ⊢
    by_cases last : p.log.saves.length = made
    · have fault : (c.failingAfter made err).world.saveFault q.log = some err := if_pos (by rw [same.saves, last])
      obtain ⟨err', q', ends, saves⟩ := fails err { q with log := .failedSave e :: q.log }
      refine ⟨err', q', (exec_bind_ok (exec_save_failed fault e) g).trans ends, ?_⟩
      have earlier := (List.prefix_append _ _).trans (grows p)
      rw [saves, Log.saves_cons, ← last, ← List.prefix_iff_eq_take.mp earlier, same.saves]
      exact List.append_nil _
    · rw [ran' (by rwa [same.saves])]
      refine rest.stops _ _ (same_after same) ?_ many
      rw [saved, List.length_append, List.length_singleton]
      omega

end Pass

open Pass

/-- A build takes no notice of saves. -/
theorem Build.version_failingAfter (c : Context) (made : Nat) (err : SyncError) (e : Entry) (s : VersionSource) :
    version (c.failingAfter made err) e s = version c e s := by
  rw [← version_undisturbed, ← version_undisturbed c]
  rfl

/-! ## The changes to one entry -/

namespace Sync

variable {c : Context} {made : Nat} {err : SyncError} {sources : List VersionSource}

theorem cutShort_failed (w : Work) (name : String) (e : SyncError) :
    CutShort made (failed c w name e) (failed (c.failingAfter made err) w name e) := by
  unfold failed
  rw [show (c.failingAfter made err).options = c.options from rfl]
  cases c.options.isolation with
  | perVersion => exact cutShort_pure _
  | failFast => exact (cutShort_push _).bind fun _ => cutShort_throw e

variable (quiet : c.IsQuiet)
include quiet

theorem cutShort_saved (w : Work) (e : Entry) (r : SyncResult) :
    CutShort made (saved c w e r) (saved (c.failingAfter made err) w e r) :=
  cutShort_save quiet.saving e (cutShort_pure _) fun _ _ => ⟨_, _, exec_stop _ _ _, rfl⟩

theorem cutShort_apply (w : Work) (change : Change) :
    CutShort made (apply c sources w change) (apply (c.failingAfter made err) sources w change) := by
  cases change with
  | remove name => exact cutShort_saved quiet _ _ _
  | build isNew name =>
    simp only [apply, Build.version_failingAfter]
    cases sources.find? fun s => s.remote.name == name with
    | none => exact cutShort_pure w
    | some s =>
      have builds := reading_attempt (Build.steady_version c w.entry s)
      refine (cutShort_reading builds builds).bind fun r => ?_
      cases r with
      | ok v => exact cutShort_saved quiet _ _ _
      | error e => exact cutShort_failed w name e

theorem cutShort_applyAll (w : Work) (changes : List Change) :
    CutShort made (applyAll c sources w changes) (applyAll (c.failingAfter made err) sources w changes) := by
  induction changes generalizing w with
  | nil => exact cutShort_pure w
  | cons change changes ih =>
    refine (cutShort_reading (reading_poll quiet.lasting) (reading_poll quiet.lasting)).bind fun cancelled => ?_
    cases cancelled with
    | true => exact cutShort_stop _ _
    | false => exact (cutShort_apply quiet w change).bind ih

theorem cutShort_finish (isNew : Bool) (w : Work) :
    CutShort made (finish c isNew w) (finish (c.failingAfter made err) isNew w) := by
  unfold finish
  split
  · exact cutShort_save quiet.saving w.entry (cutShort_push _) fun _ _ => ⟨_, _, exec_stop _ _ _, rfl⟩
  · exact cutShort_push _

end Sync

/-! ## Calls -/

section Calls

variable {c : Context} (quiet : c.IsQuiet) {made : Nat} {err : SyncError}
include quiet

theorem Job.cutShort_run (j : Job) : CutShort made (j.run c) (j.run (c.failingAfter made err)) := by
  refine (cutShort_reading (reading_look c .entry _) (reading_look _ .entry _)).bind fun old => ?_
  cases Sync.startingPoint j.path old j.sources with
  | none => exact cutShort_pure ()
  | some begun =>
    obtain ⟨before, isNew⟩ := begun
    cases compared : diff (Sync.withSettings before j.sources).versions j.listing j.mode j.forced with
    | error e =>
      simp only [compared]
      exact cutShort_stop _ e
    | ok d =>
      simp only [compared]
      split
      · split
        · exact cutShort_pure ()
        · exact cutShort_push _
      · exact (Sync.cutShort_applyAll quiet _ d.changes).bind fun w => Sync.cutShort_finish quiet isNew w

theorem Job.cutShort_runAll (js : List Job) : CutShort made (runAll c js) (runAll (c.failingAfter made err) js) := by
  induction js with
  | nil => exact cutShort_pure ()
  | cons j js ih => exact (cutShort_run quiet j).bind fun _ => ih

theorem Reconcile.cutShort_deleteFrom (name : String) (entries : List Entry) :
    CutShort made (deleteFrom c name entries) (deleteFrom (c.failingAfter made err) name entries) := by
  induction entries with
  | nil => exact cutShort_pure ()
  | cons e es ih =>
    unfold deleteFrom
    cases e.version? name with
    | none => exact ih
    | some v =>
      dsimp only
      split
      · exact (cutShort_push _).bind fun _ => ih
      · exact cutShort_save quiet.saving _ ((cutShort_push _).bind fun _ => ih) fun _ _ => ⟨_, _, exec_throw _ _, rfl⟩

theorem Agenda.cutShort_run (a : Agenda) : CutShort made (a.run c) (a.run (c.failingAfter made err)) := by
  cases a with
  | jobs js => exact Job.cutShort_runAll quiet js
  | deletion name entries => exact Reconcile.cutShort_deleteFrom quiet name entries

variable (made err) in
/-- If the save fails that comes after so many others, a call saves these and nothing more. -/
theorem Reconcile.saves_failingAfter (s : Store) (call : Call) :
    (run (c.failingAfter made err) s call).log.saves = (run c s call).log.saves.take made := by
  obtain ⟨p, reads, ends⟩ := performs_pass c call ⟨s, [], []⟩
  obtain ⟨q, reads', ends'⟩ := performs_pass (c.failingAfter made err) call ⟨s, [], []⟩
  have same : Reads p q := reads.symm.trans reads'
  have planned : plan (c.failingAfter made err) s call = plan c s call := by cases call <;> rfl
  have empty : p.log.saves = [] := reads.saves
  change (exec (pass (c.failingAfter made err) call) ⟨s, [], []⟩).2.log.saves =
    (exec (pass c call) ⟨s, [], []⟩).2.log.saves.take made
  dsimp only at ends ends'
  rw [ends, ends', planned]
  cases plan c s call with
  | error e =>
    dsimp only
    rw [same.saves, empty, List.take_nil]
  | ok a =>
    have cut : CutShort made (a.run c) (a.run (c.failingAfter made err)) := a.cutShort_run quiet
    dsimp only
    by_cases few : (exec (a.run c) p).2.log.saves.length ≤ made
    · obtain ⟨q', gone, same'⟩ := cut.along p q same few
      rw [gone, same'.saves, List.take_of_length_le few]
    · obtain ⟨err', q', gone, saves⟩ := cut.stops p q same (by simp [empty]) (Nat.not_le.mp few)
      rw [gone, saves]

end Calls

end WorkflowCatalog
