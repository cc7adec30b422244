import WorkflowCatalog.Proofs.Jobs

/-!
# What a call does

A call first reads the remote and the catalog and changes nothing. From what it has read it knows what is to
be done: the jobs for its entries one after the other, or the entries to delete a version from. `plan` says
what that is, as a function of the remote and the store, and `Deed` all that may come of it.
-/
namespace WorkflowCatalog

open Pass

namespace Job

/-- One job after the other, until one stops the call. -/
def runAll (c : Context) : List Job → Pass Unit
  | [] => return ()
  | j :: js => do
    j.run c
    runAll c js

theorem runAll_single (c : Context) (j : Job) : runAll c [j] = j.run c := bind_pure_unit

/-- How several jobs may end, one after the other. -/
inductive Effects (c : Context) : List Job → Store → Except SyncError Unit → Store → List SyncResult → Prop
  | nil (s : Store) : Effects c [] s (.ok ()) s []
  | cons {j : Job} {js : List Job} {s t : Store} {last : Option Entry} {r : Except SyncError Unit}
      {out more : List SyncResult} (first : j.Effect c (s.entry? j.path) (.ok ()) last out)
      (rest : Effects c js (s.saving last) r t more) : Effects c (j :: js) s r t (out ++ more)
  | stop {j : Job} {js : List Job} {s : Store} {last : Option Entry} {e : SyncError} {out : List SyncResult}
      (first : j.Effect c (s.entry? j.path) (.error e) last out) : Effects c (j :: js) s (.error e) (s.saving last) out

theorem exec_runAll (c : Context) (js : List Job) (p : Progress) :
    ∃ r q out, exec (runAll c js) p = (r, q) ∧ q.results = p.results ++ out ∧ Effects c js p.store r q.store out := by
  induction js generalizing p with
  | nil => exact ⟨_, p, [], rfl, by simp, .nil _⟩
  | cons j js ih =>
    obtain ⟨r, q, last, out, hx, hr, hs, he⟩ := exec_run c j p
    cases r with
    | error e =>
      rw [runAll, exec_bind_error hx]
      exact ⟨_, q, out, rfl, hr, hs ▸ .stop he⟩
    | ok _ =>
      rw [runAll, exec_bind_ok hx]
      obtain ⟨r, t, more, kx, kr, ke⟩ := ih q
      rw [hs] at ke
      exact ⟨r, t, out ++ more, kx, by rw [kr, hr, List.append_assoc], .cons he ke⟩

end Job

/-- What a call is found to have to do. -/
inductive Agenda
  | jobs (js : List Job)
  | deletion (name : String) (entries : List Entry)

/-- How the deletion of a version from entries may go. -/
inductive Deletion (name : String) : List Entry → Store → Except SyncError Unit → Store → List SyncResult → Prop
  | nil (s : Store) : Deletion name [] s (.ok ()) s []
  | absent {e : Entry} {es : List Entry} {s t : Store} {r : Except SyncError Unit} {out : List SyncResult}
      (version : e.version? name = none) (rest : Deletion name es s r t out) : Deletion name (e :: es) s r t out
  | frozen {e : Entry} {es : List Entry} {s t : Store} {r : Except SyncError Unit} {out : List SyncResult} {v : Version}
      (version : e.version? name = some v) (frozen : v.frozen = true) (rest : Deletion name es s r t out) :
      Deletion name (e :: es) s r t ({ SyncResult.forEntry e.path with skippedFrozen := [name] } :: out)
  | removed {e : Entry} {es : List Entry} {s t : Store} {r : Except SyncError Unit} {out : List SyncResult} {v : Version}
      (version : e.version? name = some v) (mutable : v.frozen = false)
      (rest : Deletion name es (s.save (e.remove name)) r t out) :
      Deletion name (e :: es) s r t ({ SyncResult.forEntry e.path with removed := [name] } :: out)
  | failed {e : Entry} {es : List Entry} {s : Store} {err : SyncError} : Deletion name (e :: es) s (.error err) s []

namespace Agenda

def run (c : Context) : Agenda → Pass Unit
  | jobs js => Job.runAll c js
  | deletion name entries => Reconcile.deleteFrom c name entries

/-- All that may come of an agenda: how the call ends, the store it leaves, and the results it hands in. -/
inductive Deed (c : Context) : Agenda → Store → Except SyncError Unit → Store → List SyncResult → Prop
  | jobs {js : List Job} {s t : Store} {r : Except SyncError Unit} {out : List SyncResult}
      (effects : Job.Effects c js s r t out) : Deed c (.jobs js) s r t out
  | deletion {name : String} {entries : List Entry} {s t : Store} {r : Except SyncError Unit} {out : List SyncResult}
      (deletion : Deletion name entries s r t out) : Deed c (.deletion name entries) s r t out

theorem exec_deleteFrom (c : Context) (name : String) (entries : List Entry) (p : Progress) :
    ∃ r q out, exec (Reconcile.deleteFrom c name entries) p = (r, q) ∧ q.results = p.results ++ out ∧
      Deletion name entries p.store r q.store out := by
  induction entries generalizing p with
  | nil => exact ⟨_, p, [], rfl, by simp, .nil _⟩
  | cons e es ih =>
    cases hv : e.version? name with
    | none =>
      simp only [Reconcile.deleteFrom, hv]
      obtain ⟨r, q, out, hx, hr, hd⟩ := ih p
      exact ⟨r, q, out, hx, hr, .absent hv hd⟩
    | some v =>
      simp only [Reconcile.deleteFrom, hv]
      cases hf : v.frozen with
      | true =>
        simp only [if_true]
        rw [exec_bind_ok (exec_push _ p)]
        obtain ⟨r, q, out, hx, hr, hd⟩ :=
          ih { p with results := p.results ++ [{ SyncResult.forEntry e.path with skippedFrozen := [name] }] }
        exact ⟨r, q, _, hx, by rw [hr, List.append_assoc]; rfl, .frozen hv hf hd⟩
      | false =>
        simp only [Bool.false_eq_true, if_false]
        cases hs : c.world.saveFault p.log with
        | some err =>
          rw [exec_bind_ok (exec_save_failed hs _)]
          exact ⟨_, _, [], rfl, by simp, .failed⟩
        | none =>
          rw [exec_bind_ok (exec_save hs _)]
          dsimp only
          rw [exec_bind_ok (exec_push _ _)]
          obtain ⟨r, q, out, hx, hr, hd⟩ := ih ⟨p.store.save (e.remove name), .save (e.remove name) :: p.log,
            p.results ++ [{ SyncResult.forEntry e.path with removed := [name] }]⟩
          exact ⟨r, q, _, hx, by rw [hr, List.append_assoc]; rfl, .removed hv hf hd⟩

theorem exec_run (c : Context) (a : Agenda) (p : Progress) :
    ∃ r q out, exec (a.run c) p = (r, q) ∧ q.results = p.results ++ out ∧ a.Deed c p.store r q.store out := by
  cases a with
  | jobs js =>
    obtain ⟨r, q, out, hx, hr, he⟩ := Job.exec_runAll c js p
    exact ⟨r, q, out, hx, hr, .jobs he⟩
  | deletion name entries =>
    obtain ⟨r, q, out, hx, hr, hd⟩ := exec_deleteFrom c name entries p
    exact ⟨r, q, out, hx, hr, .deletion hd⟩

end Agenda

/-! ## Reading -/

namespace Pass

variable {α β : Type}

/-- Reading changes nothing but the log, and what it yields depends on the store alone. -/
def Reading (x : Pass α) (f : Store → Except SyncError α) : Prop :=
  ∀ p, ∃ q, Reads p q ∧ exec x p = (f p.store, q)

/-- What there is to do is read, and then done. -/
def Performs (c : Context) (x : Pass Unit) (f : Store → Except SyncError Agenda) : Prop :=
  ∀ p, ∃ q, Reads p q ∧
    exec x p = match f p.store with
      | .ok a => exec (a.run c) q
      | .error e => (.error e, q)

theorem reading_pure (a : α) : Reading (pure a) fun _ => .ok a := fun p => ⟨p, .refl p, rfl⟩

theorem reading_throw (e : SyncError) : Reading (throw e : Pass α) fun _ => .error e := fun p => ⟨p, .refl p, rfl⟩

theorem reading_ofExcept (r : Except SyncError α) : Reading (ofExcept r) fun _ => r := fun p => ⟨p, .refl p, rfl⟩

theorem reading_read {f : Fetch α} (h : f.IsSteady) : Reading (read f) fun _ => f.answer :=
  fun p => ⟨{ p with log := (f.run.run p.log).2 }, ⟨rfl, rfl, h.saves p.log⟩, by rw [exec_read, h.answer]⟩

theorem reading_attempt {f : Fetch α} (h : f.IsSteady) : Reading (attempt f) fun _ => .ok f.answer :=
  fun p => ⟨{ p with log := (f.run.run p.log).2 }, ⟨rfl, rfl, h.saves p.log⟩, by rw [exec_attempt, h.answer]⟩

theorem reading_poll {c : Context} (lasting : ∀ log, c.world.cancelled log = false) :
    Reading (poll c) fun _ => .ok false :=
  fun p => ⟨{ p with log := .poll :: p.log }, reads_poll p, by rw [exec_poll, lasting]⟩

theorem reading_look (c : Context) (l : Lookup) (f : Store → α) :
    Reading (look c l f) fun s => match c.world.lookupFault l with | some e => .error e | none => .ok (f s) :=
  fun p => ⟨p, .refl p, exec_look c l f p⟩

theorem Reading.bind {x : Pass α} {f : Store → Except SyncError α} {g : α → Pass β}
    {h : α → Store → Except SyncError β} (hx : Reading x f) (hg : ∀ a, Reading (g a) (h a)) :
    Reading (x >>= g) fun s => f s >>= fun a => h a s := by
  intro p
  obtain ⟨q, hq, hx⟩ := hx p
  cases hf : f p.store with
  | error e =>
    rw [hf] at hx
    exact ⟨q, hq, by simp only [exec_bind_error hx, hf]; rfl⟩
  | ok a =>
    rw [hf] at hx
    obtain ⟨t, ht, hy⟩ := hg a q
    exact ⟨t, hq.trans ht, by simp only [exec_bind_ok hx, hf, hy, hq.store]; rfl⟩

theorem Reading.then {c : Context} {x : Pass α} {f : Store → Except SyncError α} {g : α → Pass Unit}
    {h : α → Store → Except SyncError Agenda} (hx : Reading x f) (hg : ∀ a, Performs c (g a) (h a)) :
    Performs c (x >>= g) fun s => f s >>= fun a => h a s := by
  intro p
  obtain ⟨q, hq, hx⟩ := hx p
  cases hf : f p.store with
  | error e =>
    rw [hf] at hx
    exact ⟨q, hq, by simp only [exec_bind_error hx, hf]; rfl⟩
  | ok a =>
    rw [hf] at hx
    obtain ⟨t, ht, hy⟩ := hg a q
    exact ⟨t, hq.trans ht, by simp only [exec_bind_ok hx, hf, hy, hq.store]; rfl⟩

theorem performs_run (c : Context) (a : Agenda) : Performs c (a.run c) fun _ => .ok a := fun p => ⟨p, .refl p, rfl⟩

end Pass

namespace Reconcile

/-- What a look into the catalog yields. -/
def lookedUp {α : Type} (c : Context) (l : Lookup) (a : α) : Except SyncError α :=
  match c.world.lookupFault l with
  | some e => .error e
  | none => .ok a

/-- Refuses a user without an account. -/
def checkedUser (c : Context) (s : Store) (username : String) : Except SyncError Unit := do
  if ← lookedUp c .user (s.hasUser username) then return ()
  else throw (.unknownUser username)

/-- The listed version of that name. -/
def listedOn (r : Remote) (repository reference : String) : Except SyncError RemoteVersion := do
  match ← r.describe repository reference with
  | some v => return v
  | none => throw (notFound repository reference)

/-- The manifest at a reference and its text. -/
def manifestOn (r : Remote) (repository reference : String) : Except SyncError (String × Manifest) := do
  match ← r.text repository reference Manifest.path with
  | none => throw (.invalidManifest ("no " ++ Manifest.path ++ " at " ++ reference))
  | some text =>
    match Manifest.parse text with
    | .ok m => return (text, m)
    | .error e => throw e.toSyncError

/-- What the manifests of a listing say. -/
def surveyOf (r : Remote) (repository : String) : List RemoteVersion → Except SyncError Survey
  | [] => .ok ⟨[], []⟩
  | v :: vs => do
    let first := surveyed v (← r.text repository v.name Manifest.path)
    let rest ← surveyOf r repository vs
    return ⟨first.sources ++ rest.sources, first.unreadable ++ rest.unreadable⟩

/-- One job for each declaration that accepts the version. -/
def pushJobs (repository : EntryPath) (text : String) (v : RemoteVersion) (ds : List Declaration) : List Job :=
  (ds.filter fun d => d.filters.accepts v.referenceType v.name).map fun d =>
    ⟨{ repository with name := d.name }, [⟨v, d, text⟩], .ofVersions [v], .push, []⟩

/-- Compares an entry with everything that is listed for it. -/
def refreshJob (repository : EntryPath) (s : Survey) (name : Option String) : Job :=
  ⟨{ repository with name := name }, s.sourcesOf name, s.listingOf name, .fullSync, []⟩

/-- One job for each entry that is declared or on record. -/
def refreshJobs (repository : EntryPath) (s : Survey) (names : List (Option String)) : List Job :=
  names.map (refreshJob repository s)

def planPush (c : Context) (s : Store) (e : WebhookEvent) : Except SyncError Agenda := do
  let reference ← GitReference.parse e.gitReference
  checkedUser c s e.username
  let repository ← repositoryPath e.repository
  let (text, m) ← manifestOn c.world.remote e.repository reference.name
  let v ← listedOn c.world.remote e.repository reference.name
  return .jobs (pushJobs repository text { v with referenceType := reference.type } m.entries)

def planDelete (c : Context) (s : Store) (e : WebhookEvent) : Except SyncError Agenda := do
  let reference ← GitReference.parse e.gitReference
  checkedUser c s e.username
  let repository ← repositoryPath e.repository
  let entries ← lookedUp c .entriesForRepository (s.forRepository repository)
  return .deletion reference.name entries

def planRefresh (c : Context) (s : Store) (repository username : String) : Except SyncError Agenda := do
  checkedUser c s username
  let path ← repositoryPath repository
  let versions ← c.world.remote.list repository
  let survey ← surveyOf c.world.remote repository versions
  let existing ← lookedUp c .entriesForRepository (s.forRepository path)
  return .jobs (refreshJobs path survey (survey.names existing))

def planRefreshVersion (c : Context) (s : Store) (repository : String) (entry : Option String)
    (version username : String) : Except SyncError Agenda := do
  checkedUser c s username
  let path ← repositoryPath repository
  let v ← listedOn c.world.remote repository version
  let (text, m) ← manifestOn c.world.remote repository version
  match m.entry? entry with
  | none => throw (undeclared entry version)
  | some d => return .jobs [⟨{ path with name := entry }, [⟨v, d, text⟩], .ofVersions [v], .push, [version]⟩]

/-- What is to be done for a call, as the remote and the store have it. -/
def plan (c : Context) (s : Store) : Call → Except SyncError Agenda
  | .event e => match e.type with
    | .push => planPush c s e
    | .delete => planDelete c s e
  | .refresh repository username => planRefresh c s repository username
  | .refreshVersion repository entry version username => planRefreshVersion c s repository entry version username

theorem pushEntries_eq (c : Context) (repository : EntryPath) (text : String) (v : RemoteVersion)
    (ds : List Declaration) :
    pushEntries c repository text v ds = Job.runAll c (pushJobs repository text v ds) := by
  induction ds with
  | nil => rfl
  | cons d ds ih =>
    rw [pushEntries, pushJobs, List.filter_cons]
    split
    · simp only [List.map_cons, Job.runAll]
      rw [ih]
      rfl
    · exact ih

theorem refreshEntries_eq (c : Context) (repository : EntryPath) (s : Survey) (names : List (Option String)) :
    refreshEntries c repository s names = Job.runAll c (refreshJobs repository s names) := by
  induction names with
  | nil => rfl
  | cons name names ih =>
    rw [refreshEntries, ih]
    rfl

theorem reading_checkUser (c : Context) (username : String) :
    Reading (checkUser c username) fun s => checkedUser c s username := by
  refine (reading_look c .user _).bind fun known => ?_
  cases known
  · exact reading_throw _
  · exact reading_pure _

theorem reading_listed (c : Context) (repository reference : String) :
    Reading (listed c repository reference) fun _ => listedOn c.world.remote repository reference := by
  have h := reading_read (Fetch.steady_describe c repository reference)
  rw [Fetch.answer_describe] at h
  refine h.bind fun found => ?_
  cases found
  · exact reading_throw _
  · exact reading_pure _

theorem reading_manifest (c : Context) (repository reference : String) :
    Reading (manifest c repository reference) fun _ => manifestOn c.world.remote repository reference := by
  have h := reading_read (Fetch.steady_text c repository reference Manifest.path)
  rw [Fetch.answer_text] at h
  refine h.bind fun found => ?_
  cases found with
  | none => exact reading_throw _
  | some text =>
    cases hm : Manifest.parse text with
    | ok m =>
      simp only [hm]
      exact reading_pure _
    | error e =>
      simp only [hm]
      exact reading_throw _

theorem reading_survey (c : Context) (repository : String) (vs : List RemoteVersion) :
    Reading (survey c repository vs) fun _ => surveyOf c.world.remote repository vs := by
  induction vs with
  | nil => exact reading_pure _
  | cons v vs ih =>
    have h := reading_read (Fetch.steady_text c repository v.name Manifest.path)
    rw [Fetch.answer_text] at h
    exact h.bind fun _ => ih.bind fun _ => reading_pure _

theorem performs_push (c : Context) (e : WebhookEvent) : Performs c (push c e) fun s => planPush c s e := by
  refine (reading_ofExcept _).then fun reference => ?_
  refine (reading_checkUser c _).then fun _ => ?_
  refine (reading_ofExcept _).then fun repository => ?_
  refine (reading_manifest c _ _).then fun found => ?_
  refine (reading_listed c _ _).then fun v => ?_
  rw [pushEntries_eq]
  exact performs_run c (.jobs _)

theorem performs_delete (c : Context) (e : WebhookEvent) : Performs c (delete c e) fun s => planDelete c s e := by
  refine (reading_ofExcept _).then fun reference => ?_
  refine (reading_checkUser c _).then fun _ => ?_
  refine (reading_ofExcept _).then fun repository => ?_
  exact (reading_look c _ _).then fun entries => performs_run c (.deletion _ _)

theorem performs_refresh (c : Context) (repository username : String) :
    Performs c (refresh c repository username) fun s => planRefresh c s repository username := by
  refine (reading_checkUser c _).then fun _ => ?_
  refine (reading_ofExcept _).then fun path => ?_
  refine (reading_read (Fetch.steady_list c _)).then fun versions => ?_
  refine (reading_survey c _ _).then fun s => ?_
  refine (reading_look c _ _).then fun existing => ?_
  rw [refreshEntries_eq]
  exact performs_run c (.jobs _)

theorem performs_refreshVersion (c : Context) (repository : String) (entry : Option String) (version username : String) :
    Performs c (refreshVersion c repository entry version username) fun s =>
      planRefreshVersion c s repository entry version username := by
  refine (reading_checkUser c _).then fun _ => ?_
  refine (reading_ofExcept _).then fun path => ?_
  refine (reading_listed c _ _).then fun v => ?_
  refine (reading_manifest c _ _).then fun found => ?_
  obtain ⟨text, m⟩ := found
  cases hm : m.entry? entry with
  | none =>
    simp only [hm]
    exact fun p => ⟨p, .refl p, rfl⟩
  | some d =>
    simp only [hm]
    have h := performs_run c (.jobs [⟨{ path with name := entry }, [⟨v, d, text⟩], .ofVersions [v], .push, [version]⟩])
    rw [Agenda.run, Job.runAll_single] at h
    exact h

/-- A call reads what there is to do and then does it. -/
theorem performs_pass (c : Context) (call : Call) : Performs c (pass c call) fun s => plan c s call := by
  cases call with
  | event e =>
    simp only [pass, plan]
    cases e.type with
    | push => exact performs_push c e
    | delete => exact performs_delete c e
  | refresh repository username => exact performs_refresh c repository username
  | refreshVersion repository entry version username => exact performs_refreshVersion c repository entry version username

/-- How a call may end: nothing comes of it because reading failed, or something comes of what is to be done. -/
inductive Ends (c : Context) (s : Store) (call : Call) (o : Outcome) : Prop
  | refused {e : SyncError} (planned : plan c s call = .error e) (store : o.store = s)
      (results : o.results = closed (.error e) [])
  | acted {a : Agenda} {r : Except SyncError Unit} {out : List SyncResult} (planned : plan c s call = .ok a)
      (deed : a.Deed c s r o.store out) (results : o.results = closed r out)

theorem run_of_exec {c : Context} {s : Store} {call : Call} {r : Except SyncError Unit} {p : Progress}
    (h : exec (pass c call) ⟨s, [], []⟩ = (r, p)) :
    (run c s call).store = p.store ∧ (run c s call).results = closed r p.results := by
  change (exec (pass c call) ⟨s, [], []⟩).2.store = _ ∧
    closed (exec (pass c call) ⟨s, [], []⟩).1 (exec (pass c call) ⟨s, [], []⟩).2.results = _
  rw [h]
  exact ⟨rfl, rfl⟩

theorem ends_run (c : Context) (s : Store) (call : Call) : Ends c s call (run c s call) := by
  obtain ⟨q, hq, hx⟩ := performs_pass c call ⟨s, [], []⟩
  dsimp only at hx
  cases hp : plan c s call with
  | error e =>
    rw [hp] at hx
    obtain ⟨hs, hr⟩ := run_of_exec hx
    exact .refused hp (hs.trans hq.store) (hr.trans (by rw [hq.results]))
  | ok a =>
    obtain ⟨r, t, out, ha, hr, hd⟩ := Agenda.exec_run c a q
    rw [hp] at hx
    obtain ⟨hs, ht⟩ := run_of_exec (hx.trans ha)
    rw [hq.store, ← hs] at hd
    rw [hr, hq.results] at ht
    exact .acted hp hd ht

/-- A call that is done was not stopped, and all results that were handed in tell of success. -/
theorem success_of_closed {r : Except SyncError Unit} {out : List SyncResult}
    (h : (closed r out).all (·.success) = true) : r = .ok () ∧ ∀ x ∈ out, x.success = true := by
  cases r with
  | error e =>
    simp only [closed] at h
    split at h
    · simp [SyncResult.callFailure] at h
    · contradiction
  | ok _ =>
    simp only [closed] at h
    split at h
    · rename_i hn
      simp [List.isEmpty_iff.mp hn]
    · exact ⟨rfl, fun x hx => List.all_eq_true.mp h x hx⟩

/-- What a call adds to the results that were handed in names no version. -/
theorem mem_closed {r : Except SyncError Unit} {out : List SyncResult} {x : SyncResult} (h : x ∈ closed r out) :
    x ∈ out ∨ x.entry = none ∧ x.hasChanges = false := by
  unfold closed at h
  split at h
  · split at h
    · rcases List.mem_append.mp h with h | h
      · exact .inl h
      · rw [List.mem_singleton.mp h]
        exact .inr ⟨rfl, rfl⟩
    · exact .inl h
  · split at h
    · rw [List.mem_singleton.mp h]
      exact .inr ⟨rfl, rfl⟩
    · exact .inl h

theorem mem_of_told {r : Except SyncError Unit} {out : List SyncResult} {x : SyncResult} (h : x ∈ closed r out)
    {isNew : Bool} {n : String} (hn : n ∈ Sync.told isNew x) : x ∈ out := by
  refine (mem_closed h).resolve_right fun ⟨_, idle⟩ => ?_
  simp only [SyncResult.hasChanges, Bool.not_eq_false', Bool.and_eq_true, List.isEmpty_iff] at idle
  cases isNew <;> simp [Sync.told, idle] at hn

end Reconcile

end WorkflowCatalog
