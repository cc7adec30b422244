import WorkflowCatalog.Reconcile

/-!
# How parts of a call run

A part of a call ends with a value or a failure, and with the progress that was made by then. The equations
here say so for each primitive, so that nothing else needs to know how calls are put together. Reading the
remote never looks at the log that it writes: what it ends with is settled by the remote alone, and nothing is
saved by it.
-/
namespace WorkflowCatalog

namespace Pass

variable {α β : Type}

/-- How a part of a call ends, and the progress it leaves. -/
def exec (x : Pass α) (p : Progress) : Except SyncError α × Progress := x.run.run p

@[simp] theorem exec_pure (a : α) (p : Progress) : exec (pure a) p = (.ok a, p) := rfl

@[simp] theorem exec_throw (e : SyncError) (p : Progress) : exec (throw e : Pass α) p = (.error e, p) := rfl

theorem exec_bind (x : Pass α) (f : α → Pass β) (p : Progress) :
    exec (x >>= f) p =
      match exec x p with
      | (.ok a, q) => exec (f a) q
      | (.error e, q) => (.error e, q) := by
  change (ExceptT.bindCont f (exec x p).1 : StateM Progress (Except SyncError β)).run (exec x p).2 = _
  rcases exec x p with ⟨_ | _, _⟩ <;> rfl

theorem exec_bind_ok {x : Pass α} {p q : Progress} {a : α} (h : exec x p = (.ok a, q)) (f : α → Pass β) :
    exec (x >>= f) p = exec (f a) q := by
  rw [exec_bind, h]

theorem exec_bind_error {x : Pass α} {p q : Progress} {e : SyncError} (h : exec x p = (.error e, q))
    (f : α → Pass β) : exec (x >>= f) p = (.error e, q) := by
  rw [exec_bind, h]

@[simp] theorem exec_ofExcept (r : Except SyncError α) (p : Progress) : exec (ofExcept r) p = (r, p) := rfl

@[simp] theorem exec_attempt (f : Fetch α) (p : Progress) :
    exec (attempt f) p = (.ok (f.run.run p.log).1, { p with log := (f.run.run p.log).2 }) := rfl

@[simp] theorem exec_read (f : Fetch α) (p : Progress) :
    exec (read f) p = ((f.run.run p.log).1, { p with log := (f.run.run p.log).2 }) := rfl

@[simp] theorem exec_poll (c : Context) (p : Progress) :
    exec (poll c) p = (.ok (c.world.cancelled (.poll :: p.log)), { p with log := .poll :: p.log }) := rfl

@[simp] theorem exec_push (r : SyncResult) (p : Progress) :
    exec (push r) p = (.ok (), { p with results := p.results ++ [r] }) := rfl

@[simp] theorem exec_stop (r : SyncResult) (e : SyncError) (p : Progress) :
    exec (stop r e : Pass α) p = (.error e, { p with results := p.results ++ [r.fail e.message] }) := rfl

theorem exec_look (c : Context) (l : Lookup) (f : Store → α) (p : Progress) :
    exec (look c l f) p = ((match c.world.lookupFault l with | some e => .error e | none => .ok (f p.store)), p) := by
  cases h : c.world.lookupFault l <;> simp only [look, h] <;> rfl

theorem exec_save {c : Context} {p : Progress} (h : c.world.saveFault p.log = none) (e : Entry) :
    exec (save c e) p = (.ok none, { p with store := p.store.save e, log := .save e :: p.log }) := by
  change (match c.world.saveFault p.log with | some err => _ | none => _ : Pass (Option SyncError)).run.run p = _
  rw [h]
  rfl

theorem exec_save_failed {c : Context} {p : Progress} {err : SyncError} (h : c.world.saveFault p.log = some err)
    (e : Entry) : exec (save c e) p = (.ok (some err), { p with log := .failedSave e :: p.log }) := by
  change (match c.world.saveFault p.log with | some err => _ | none => _ : Pass (Option SyncError)).run.run p = _
  rw [h]
  rfl

/-- Nothing but the log differs, and no save is in it, as after reading. -/
structure Reads (p q : Progress) : Prop where
  store : q.store = p.store
  results : q.results = p.results
  saves : q.log.saves = p.log.saves

theorem Reads.refl (p : Progress) : Reads p p := ⟨rfl, rfl, rfl⟩

theorem Reads.symm {p q : Progress} (h : Reads p q) : Reads q p := ⟨h.store.symm, h.results.symm, h.saves.symm⟩

theorem Reads.trans {p q r : Progress} (h : Reads p q) (k : Reads q r) : Reads p r :=
  ⟨k.store.trans h.store, k.results.trans h.results, k.saves.trans h.saves⟩

theorem reads_poll (p : Progress) : Reads p { p with log := .poll :: p.log } :=
  ⟨rfl, rfl, (Log.saves_cons _ _).trans (List.append_nil _)⟩

end Pass

namespace Fetch

variable {α β : Type}

/-- What reading ends with. -/
def answer (f : Fetch α) : Except SyncError α := (f.run.run []).1

/-- What was done before makes no difference to what reading ends with, and nothing is saved. -/
structure IsSteady (f : Fetch α) : Prop where
  answer : ∀ log : Log, (f.run.run log).1 = f.answer
  saves : ∀ log : Log, Log.saves (f.run.run log).2 = Log.saves log

@[simp] theorem steady_pure (a : α) : IsSteady (pure a) := ⟨fun _ => rfl, fun _ => rfl⟩

@[simp] theorem answer_pure (a : α) : answer (pure a) = .ok a := rfl

@[simp] theorem steady_throw (e : SyncError) : IsSteady (throw e : Fetch α) := ⟨fun _ => rfl, fun _ => rfl⟩

@[simp] theorem answer_throw (e : SyncError) : answer (throw e : Fetch α) = .error e := rfl

@[simp] theorem steady_ofExcept (r : Except SyncError α) : IsSteady (ofExcept r) := ⟨fun _ => rfl, fun _ => rfl⟩

@[simp] theorem answer_ofExcept (r : Except SyncError α) : answer (ofExcept r) = r := rfl

theorem run_bind (f : Fetch α) (g : α → Fetch β) (log : Log) :
    (f >>= g).run.run log =
      match f.run.run log with
      | (.ok a, new) => (g a).run.run new
      | (.error e, new) => (.error e, new) := by
  change (ExceptT.bindCont g (f.run.run log).1 : StateM Log (Except SyncError β)).run (f.run.run log).2 = _
  rcases f.run.run log with ⟨_ | _, _⟩ <;> rfl

theorem run_bind_answer {f : Fetch α} {g : α → Fetch β} (hf : IsSteady f) (hg : ∀ a, IsSteady (g a)) (log : Log) :
    ((f >>= g).run.run log).1 = f.answer >>= fun a => (g a).answer := by
  rw [run_bind, ← hf.answer log]
  rcases f.run.run log with ⟨_ | a, new⟩
  · rfl
  · exact (hg a).answer new

theorem steady_bind {f : Fetch α} {g : α → Fetch β} (hf : IsSteady f) (hg : ∀ a, IsSteady (g a)) :
    IsSteady (f >>= g) := by
  refine ⟨fun log => (run_bind_answer hf hg log).trans (run_bind_answer hf hg []).symm, fun log => ?_⟩
  rw [run_bind, ← hf.saves log]
  rcases f.run.run log with ⟨_ | a, new⟩
  · rfl
  · exact (hg a).saves new

theorem answer_bind {f : Fetch α} {g : α → Fetch β} (hf : IsSteady f) (hg : ∀ a, IsSteady (g a)) :
    (f >>= g).answer = f.answer >>= fun a => (g a).answer :=
  run_bind_answer hf hg []

variable (c : Context) (repository reference path : String)

@[simp] theorem steady_list : IsSteady (list c repository) :=
  ⟨fun _ => rfl, fun log => (Log.saves_cons (.list repository) log).trans (List.append_nil _)⟩

@[simp] theorem answer_list : (list c repository).answer = c.world.remote.list repository := rfl

@[simp] theorem steady_describe : IsSteady (describe c repository reference) :=
  steady_bind (steady_list c repository) fun _ => steady_pure _

theorem answer_describe : (describe c repository reference).answer = c.world.remote.describe repository reference := by
  rw [describe, answer_bind (steady_list c repository) fun _ => steady_pure _]
  rfl

@[simp] theorem steady_file : IsSteady (file c repository reference path) :=
  ⟨fun _ => rfl, fun log => (Log.saves_cons (.fetch repository reference path) log).trans (List.append_nil _)⟩

@[simp] theorem steady_text : IsSteady (text c repository reference path) :=
  steady_bind (steady_file c repository reference path) fun _ => steady_pure _

@[simp] theorem answer_text :
    (text c repository reference path).answer = c.world.remote.text repository reference path := by
  rw [text, answer_bind (steady_file c repository reference path) fun _ => steady_pure _]
  rfl

end Fetch

end WorkflowCatalog
