import WorkflowCatalog.Proofs.Additions
import WorkflowCatalog.Proofs.Remotes
import WorkflowCatalog.Proofs.Stops

/-!
# Calls that are refused

A call asks for everything it needs before it touches an entry: the account, the address, the reference, and what the
remote has for it. If any of that is not there, the call leaves no trace but one result with the error. The conditions
are checked in a different order by each kind of call, and they are given here without any order: a call is refused
exactly if one of them fails, and what it is refused for is one of those that fail.
-/
namespace WorkflowCatalog

open Pass

namespace Call

/-- The account that a call is made for. -/
def username : Call → String
  | event e => e.username
  | refresh _ username => username
  | refreshVersion _ _ _ username => username

/-- The call is for one version of its repository, which was pushed or is to be built again. -/
inductive Follows : Call → String → Prop
  | push {e : WebhookEvent} {reference : GitReference} (type : e.type = .push)
      (parsed : GitReference.parse e.gitReference = .ok reference) : Follows (.event e) reference.name
  | refreshVersion {repository : String} {entry : Option String} {version username : String} :
      Follows (.refreshVersion repository entry version username) version

end Call

theorem bind_eq_error {ε α β : Type} {x : Except ε α} {f : α → Except ε β} {e : ε} :
    x >>= f = .error e ↔ x = .error e ∨ ∃ a, x = .ok a ∧ f a = .error e := by
  cases x with
  | error err => simp [bind, Except.bind]
  | ok a => simp [bind, Except.bind]

namespace Reconcile

variable {c : Context} {s : Store} {call : Call} {e : SyncError}

/-- What a call lacks, and the error that tells so. -/
inductive Refusal (c : Context) (s : Store) : Call → SyncError → Prop
  | unreadUser {call : Call} {e : SyncError} (fault : c.world.lookupFault .user = some e) : Refusal c s call e
  | unknownUser {call : Call} (unknown : s.hasUser call.username = false) :
      Refusal c s call (.unknownUser call.username)
  | address {call : Call} (nowhere : EntryPath.ofRepository? call.repository none = none) :
      Refusal c s call (.invalidReference ("repository must be org/repo, got " ++ call.repository))
  | reference {event : WebhookEvent} {e : SyncError} (malformed : GitReference.parse event.gitReference = .error e) :
      Refusal c s (.event event) e
  | unfetchedManifest {call : Call} {n : String} {e : SyncError} (follows : call.Follows n)
      (unfetched : c.world.remote.text call.repository n Manifest.path = .error e) : Refusal c s call e
  | missingManifest {call : Call} {n : String} (follows : call.Follows n)
      (missing : c.world.remote.text call.repository n Manifest.path = .ok none) :
      Refusal c s call (.invalidManifest ("no " ++ Manifest.path ++ " at " ++ n))
  | invalidManifest {call : Call} {n text : String} {err : ManifestError} (follows : call.Follows n)
      (found : c.world.remote.text call.repository n Manifest.path = .ok (some text))
      (invalid : Manifest.parse text = .error err) : Refusal c s call err.toSyncError
  | undescribed {call : Call} {n : String} {e : SyncError} (follows : call.Follows n)
      (undescribed : c.world.remote.describe call.repository n = .error e) : Refusal c s call e
  | unlisted {call : Call} {n : String} (follows : call.Follows n)
      (unlisted : c.world.remote.describe call.repository n = .ok none) :
      Refusal c s call (notFound call.repository n)
  | undeclared {repository : String} {entry : Option String} {version username text : String} {m : Manifest}
      (found : c.world.remote.text repository version Manifest.path = .ok (some text))
      (parsed : Manifest.parse text = .ok m) (undeclared : m.entry? entry = none) :
      Refusal c s (.refreshVersion repository entry version username) (Reconcile.undeclared entry version)
  | unlistable {repository username : String} {e : SyncError} (unlistable : c.world.remote.list repository = .error e) :
      Refusal c s (.refresh repository username) e
  | unsurveyed {repository username : String} {e : SyncError} {vs : List RemoteVersion} {v : RemoteVersion}
      (listed : c.world.remote.list repository = .ok vs) (member : v ∈ vs)
      (unfetched : c.world.remote.text repository v.name Manifest.path = .error e) :
      Refusal c s (.refresh repository username) e
  | unreadForDelete {event : WebhookEvent} {e : SyncError} (type : event.type = .delete)
      (fault : c.world.lookupFault .entriesForRepository = some e) : Refusal c s (.event event) e
  | unreadForRefresh {repository username : String} {e : SyncError}
      (fault : c.world.lookupFault .entriesForRepository = some e) : Refusal c s (.refresh repository username) e

/-! ## What a call is refused for -/

theorem read_of_lookedUp {α : Type} {l : Lookup} {a b : α} (h : lookedUp c l a = .ok b) :
    c.world.lookupFault l = none := by
  unfold lookedUp at h
  split at h
  · cases h
  · assumption

theorem lookedUp_eq_error {α : Type} {l : Lookup} {a : α} (h : lookedUp c l a = .error e) :
    c.world.lookupFault l = some e := by
  unfold lookedUp at h
  split at h
  · obtain rfl := Except.error.inj h
    assumption
  · cases h

theorem refusal_of_checkedUser (h : checkedUser c s call.username = .error e) : Refusal c s call e := by
  obtain fault | ⟨known, looked, h⟩ := bind_eq_error.mp h
  · exact .unreadUser (lookedUp_eq_error fault)
  · cases known with
    | true => cases h
    | false =>
      obtain rfl := Except.error.inj h
      exact .unknownUser (lookedUp_eq_ok looked).symm

theorem refusal_of_repositoryPath (h : repositoryPath call.repository = .error e) : Refusal c s call e := by
  unfold repositoryPath at h
  split at h
  · cases h
  · obtain rfl := Except.error.inj h
    exact .address ‹_›

theorem refusal_of_manifestOn {n : String} (follows : call.Follows n)
    (h : manifestOn c.world.remote call.repository n = .error e) : Refusal c s call e := by
  obtain unfetched | ⟨found, fetched, h⟩ := bind_eq_error.mp h
  · exact .unfetchedManifest follows unfetched
  · cases found with
    | none =>
      obtain rfl := Except.error.inj h
      exact .missingManifest follows fetched
    | some text =>
      cases parsed : Manifest.parse text with
      | ok m =>
        simp only [parsed] at h
        cases h
      | error err =>
        simp only [parsed] at h
        obtain rfl := Except.error.inj h
        exact .invalidManifest follows fetched parsed

theorem refusal_of_listedOn {n : String} (follows : call.Follows n)
    (h : listedOn c.world.remote call.repository n = .error e) : Refusal c s call e := by
  obtain undescribed | ⟨found, described, h⟩ := bind_eq_error.mp h
  · exact .undescribed follows undescribed
  · cases found with
    | some v => cases h
    | none =>
      obtain rfl := Except.error.inj h
      exact .unlisted follows described

theorem unfetched_of_surveyOf {r : Remote} {repository : String} {vs : List RemoteVersion}
    (h : surveyOf r repository vs = .error e) : ∃ v ∈ vs, r.text repository v.name Manifest.path = .error e := by
  induction vs with
  | nil => cases h
  | cons v vs ih =>
    obtain unfetched | ⟨found, -, h⟩ := bind_eq_error.mp h
    · exact ⟨v, List.mem_cons_self, unfetched⟩
    · obtain others | ⟨rest, -, h⟩ := bind_eq_error.mp h
      · obtain ⟨u, member, unfetched⟩ := ih others
        exact ⟨u, List.mem_cons_of_mem v member, unfetched⟩
      · cases h

theorem refusal_of_planPush {event : WebhookEvent} (type : event.type = .push) (h : planPush c s event = .error e) :
    Refusal c s (.event event) e := by
  obtain malformed | ⟨reference, parsed, h⟩ := bind_eq_error.mp h
  · exact .reference malformed
  obtain user | ⟨_, -, h⟩ := bind_eq_error.mp h
  · exact refusal_of_checkedUser user
  obtain nowhere | ⟨p, -, h⟩ := bind_eq_error.mp h
  · exact refusal_of_repositoryPath nowhere
  obtain unread | ⟨⟨text, m⟩, -, h⟩ := bind_eq_error.mp h
  · exact refusal_of_manifestOn (.push type parsed) unread
  obtain unlisted | ⟨v, -, h⟩ := bind_eq_error.mp h
  · exact refusal_of_listedOn (.push type parsed) unlisted
  · cases h

theorem refusal_of_planDelete {event : WebhookEvent} (type : event.type = .delete)
    (h : planDelete c s event = .error e) : Refusal c s (.event event) e := by
  obtain malformed | ⟨reference, -, h⟩ := bind_eq_error.mp h
  · exact .reference malformed
  obtain user | ⟨_, -, h⟩ := bind_eq_error.mp h
  · exact refusal_of_checkedUser user
  obtain nowhere | ⟨p, -, h⟩ := bind_eq_error.mp h
  · exact refusal_of_repositoryPath nowhere
  obtain unread | ⟨entries, -, h⟩ := bind_eq_error.mp h
  · exact .unreadForDelete type (lookedUp_eq_error unread)
  · cases h

theorem refusal_of_planRefresh {repository username : String} (h : planRefresh c s repository username = .error e) :
    Refusal c s (.refresh repository username) e := by
  obtain user | ⟨_, -, h⟩ := bind_eq_error.mp h
  · exact refusal_of_checkedUser user
  obtain nowhere | ⟨p, -, h⟩ := bind_eq_error.mp h
  · exact refusal_of_repositoryPath nowhere
  obtain unlistable | ⟨vs, listed, h⟩ := bind_eq_error.mp h
  · exact .unlistable unlistable
  obtain unsurveyed | ⟨survey, -, h⟩ := bind_eq_error.mp h
  · obtain ⟨v, member, unfetched⟩ := unfetched_of_surveyOf unsurveyed
    exact .unsurveyed listed member unfetched
  obtain unread | ⟨existing, -, h⟩ := bind_eq_error.mp h
  · exact .unreadForRefresh (lookedUp_eq_error unread)
  · cases h

theorem refusal_of_planRefreshVersion {repository : String} {entry : Option String} {version username : String}
    (h : planRefreshVersion c s repository entry version username = .error e) :
    Refusal c s (.refreshVersion repository entry version username) e := by
  obtain user | ⟨_, -, h⟩ := bind_eq_error.mp h
  · exact refusal_of_checkedUser user
  obtain nowhere | ⟨p, -, h⟩ := bind_eq_error.mp h
  · exact refusal_of_repositoryPath nowhere
  obtain unlisted | ⟨v, -, h⟩ := bind_eq_error.mp h
  · exact refusal_of_listedOn .refreshVersion unlisted
  obtain unread | ⟨⟨text, m⟩, read, h⟩ := bind_eq_error.mp h
  · exact refusal_of_manifestOn .refreshVersion unread
  obtain ⟨found, parsed⟩ := manifestOn_eq_ok read
  cases undeclared : m.entry? entry with
  | some d =>
    simp only [undeclared] at h
    cases h
  | none =>
    simp only [undeclared] at h
    obtain rfl := Except.error.inj h
    exact .undeclared found parsed undeclared

/-- A call is refused for something that it lacks. -/
theorem refusal_of_plan (h : plan c s call = .error e) : Refusal c s call e := by
  cases call with
  | event event =>
    rw [plan] at h
    cases type : event.type with
    | push => exact refusal_of_planPush type (by rwa [type] at h)
    | delete => exact refusal_of_planDelete type (by rwa [type] at h)
  | refresh repository username => exact refusal_of_planRefresh h
  | refreshVersion repository entry version username => exact refusal_of_planRefreshVersion h

/-! ## What refuses a call -/

theorem known_of_checkedUser {username : String} (h : checkedUser c s username = .ok ()) :
    c.world.lookupFault .user = none ∧ s.hasUser username = true := by
  obtain ⟨known, looked, h⟩ := bind_eq_ok.mp h
  cases known with
  | false => cases h
  | true => exact ⟨read_of_lookedUp looked, (lookedUp_eq_ok looked).symm⟩

/-- There is nothing to be done for a call without an account. -/
theorem checkedUser_of_plan {a : Agenda} (h : plan c s call = .ok a) : checkedUser c s call.username = .ok () := by
  cases call with
  | event event =>
    rw [plan] at h
    split at h
    all_goals
      obtain ⟨reference, -, h⟩ := bind_eq_ok.mp h
      obtain ⟨_, known, -⟩ := bind_eq_ok.mp h
      exact known
  | refresh repository username =>
    obtain ⟨_, known, -⟩ := bind_eq_ok.mp h
    exact known
  | refreshVersion repository entry version username =>
    obtain ⟨_, known, -⟩ := bind_eq_ok.mp h
    exact known

theorem read_of_planDelete {event : WebhookEvent} {a : Agenda} (type : event.type = .delete)
    (h : plan c s (.event event) = .ok a) : c.world.lookupFault .entriesForRepository = none := by
  simp only [plan, type] at h
  obtain ⟨_, -, h⟩ := bind_eq_ok.mp h
  obtain ⟨_, -, h⟩ := bind_eq_ok.mp h
  obtain ⟨_, -, h⟩ := bind_eq_ok.mp h
  obtain ⟨entries, looked, -⟩ := bind_eq_ok.mp h
  exact read_of_lookedUp looked

/-- What a call follows has been found if there is anything to be done. -/
theorem Planned.follows {a : Agenda} {n : String} (h : Planned c s call a) (follows : call.Follows n) :
    ∃ text m v, c.world.remote.text call.repository n Manifest.path = .ok (some text) ∧
      Manifest.parse text = .ok m ∧ c.world.remote.describe call.repository n = .ok (some v) := by
  have found {text : String} {m : Manifest} {v : RemoteVersion}
      (manifest : manifestOn c.world.remote call.repository n = .ok (text, m))
      (listed : listedOn c.world.remote call.repository n = .ok v) :
      ∃ text m v, c.world.remote.text call.repository n Manifest.path = .ok (some text) ∧
        Manifest.parse text = .ok m ∧ c.world.remote.describe call.repository n = .ok (some v) := by
    obtain ⟨fetched, parsed⟩ := manifestOn_eq_ok manifest
    obtain ⟨vs, list, first⟩ := listedOn_eq_ok listed
    exact ⟨text, m, v, fetched, parsed, by rw [Remote.describe, list, Except.map, first]⟩
  cases h with
  | push _ parsed _ manifest listed =>
    cases follows with
    | push _ same =>
      obtain rfl := Except.ok.inj (parsed.symm.trans same)
      exact found manifest listed
  | delete type =>
    cases follows with
    | push push => cases type.symm.trans push
  | refresh => cases follows
  | refreshVersion _ listed manifest =>
    cases follows
    exact found manifest listed

/-- There is nothing to be done for a call that lacks something. -/
theorem Refusal.not_planned (h : Refusal c s call e) {a : Agenda} (plan : plan c s call = .ok a) : False := by
  have user := known_of_checkedUser (checkedUser_of_plan plan)
  have planned := planned plan
  cases h with
  | unreadUser fault => exact nomatch fault.symm.trans user.1
  | unknownUser unknown => exact nomatch unknown.symm.trans user.2
  | address nowhere =>
    obtain ⟨p, path⟩ := planned.repository
    exact nomatch nowhere.symm.trans (repositoryPath_eq_ok path)
  | reference malformed =>
    cases planned with
    | push _ parsed => exact nomatch malformed.symm.trans parsed
    | delete _ parsed => exact nomatch malformed.symm.trans parsed
  | unfetchedManifest follows unfetched =>
    obtain ⟨text, m, v, found, -⟩ := planned.follows follows
    exact nomatch unfetched.symm.trans found
  | missingManifest follows missing =>
    obtain ⟨text, m, v, found, -⟩ := planned.follows follows
    exact nomatch missing.symm.trans found
  | invalidManifest follows found invalid =>
    obtain ⟨text, m, v, again, parsed, -⟩ := planned.follows follows
    obtain rfl := Option.some.inj (Except.ok.inj (found.symm.trans again))
    exact nomatch invalid.symm.trans parsed
  | undescribed follows undescribed =>
    obtain ⟨text, m, v, -, -, described⟩ := planned.follows follows
    exact nomatch undescribed.symm.trans described
  | unlisted follows unlisted =>
    obtain ⟨text, m, v, -, -, described⟩ := planned.follows follows
    exact nomatch unlisted.symm.trans described
  | undeclared found parsed undeclared =>
    cases planned with
    | refreshVersion _ _ manifest declared =>
      obtain ⟨again, parsed'⟩ := manifestOn_eq_ok manifest
      obtain rfl := Option.some.inj (Except.ok.inj (found.symm.trans again))
      obtain rfl := Except.ok.inj (parsed.symm.trans parsed')
      exact nomatch undeclared.symm.trans declared
  | unlistable unlistable =>
    cases planned with
    | refresh _ listed => exact nomatch unlistable.symm.trans listed
  | unsurveyed listed member unfetched =>
    cases planned with
    | refresh _ again surveyed =>
      obtain rfl := Except.ok.inj (listed.symm.trans again)
      obtain ⟨found, fetched⟩ := fetched_of_surveyOf surveyed _ member
      exact nomatch unfetched.symm.trans fetched
  | unreadForDelete type fault => exact nomatch fault.symm.trans (read_of_planDelete type plan)
  | unreadForRefresh fault =>
    obtain ⟨-, _, _, _, -, -, -, read, -⟩ := plan_refresh_eq_ok_iff.mp plan
    exact nomatch fault.symm.trans read

/-! ## What comes of it -/

theorem status_of_refused (refused : plan c s call = .error e) : status c s call = .error e := by
  obtain ⟨q, -, hx⟩ := performs_pass c call ⟨s, [], []⟩
  simp only [refused] at hx
  rw [status, hx]

theorem results_of_refused (refused : plan c s call = .error e) :
    (run c s call).results = [.callFailure e.message] := by
  cases ends_run c s call with
  | refused planned _ results =>
    obtain rfl := Except.error.inj (refused.symm.trans planned)
    exact results
  | acted planned => exact nomatch refused.symm.trans planned

theorem results_run (c : Context) (s : Store) (call : Call) :
    ∃ out, (run c s call).results = closed (status c s call) out := ⟨_, rfl⟩

theorem closed_ne_nil (r : Except SyncError Unit) (out : List SyncResult) : closed r out ≠ [] := by
  cases r with
  | error e =>
    rw [closed]
    split
    · exact List.append_ne_nil_of_right_ne_nil _ (List.cons_ne_nil _ _)
    · rintro rfl
      contradiction
  | ok _ =>
    rw [closed]
    split
    · exact List.cons_ne_nil _ _
    · rintro rfl
      contradiction

/-- A call that lacks something leaves the catalog as it was and is not done. There is one result; it is for no entry,
tells of no change and no success, and its message is of something that the call lacks. Of any call, the recorder gets
the results in their order and there is one at least; the call is done if all of them tell of success, which they never
do if an error has stopped it. -/
theorem refused_without_trace (c : Context) (s : Store) (call : Call) :
    let o := run c s call
    (∀ e, Refusal c s call e → ∃ e', Refusal c s call e' ∧ status c s call = .error e' ∧ o.store = s ∧
      o.log.saves = [] ∧ o.isDone = false ∧ o.results = [.callFailure e'.message] ∧
      ∃ x, o.results = [x] ∧ x.entry = none ∧ x.success = false ∧ x.message = some e'.message ∧ x.hasChanges = false) ∧
    o.recorded = o.results.filter c.world.records ∧ o.results ≠ [] ∧
    (o.isDone = true ↔ ∀ x ∈ o.results, x.success = true) ∧
    ∀ e, status c s call = .error e → o.isDone = false := by
  obtain ⟨out, results⟩ := results_run c s call
  refine ⟨fun e h => ?_, rfl, ?_, List.all_eq_true, fun e stopped => ?_⟩
  · cases refused : plan c s call with
    | ok a => exact (h.not_planned refused).elim
    | error e' =>
      -- Of all that the call lacks, it tells what it comes to first.
      have told := results_of_refused refused
      refine ⟨e', refusal_of_plan refused, status_of_refused refused, store_of_refused refused,
        saves_of_refused refused, ?_, told, _, told, rfl, rfl, rfl, rfl⟩
      rw [Outcome.isDone, told]
      rfl
  · rw [results]
    exact closed_ne_nil _ _
  · refine Bool.eq_false_iff.mpr fun done => ?_
    rw [Outcome.isDone, results] at done
    cases stopped.symm.trans (success_of_closed done).1

end Reconcile

namespace Sample

/-- The manifest of one of the two listed versions cannot be fetched. -/
def severed : Context := { context [] with
  world := { (context []).world with
    remote := {
      list := fun _ => .ok [main, ⟨"v1", .tag, "c2", none⟩]
      file := fun repository n path =>
        if n = "v1" then .error (.remoteFetch repository n path "timed out") else (remote []).file repository n path } } }

end Sample

namespace Reconcile

/-- A refresh that cannot read all manifests does not touch what it could read either. -/
theorem sample_refresh_refused :
    let o := run Sample.severed Sample.refreshed.1 Sample.refresh
    o.store = Sample.refreshed.1 ∧ o.isDone = false ∧
      ∃ e, Refusal Sample.severed Sample.refreshed.1 Sample.refresh e ∧ o.results = [.callFailure e.message] := by
  have lacks : Refusal Sample.severed Sample.refreshed.1 Sample.refresh _ :=
    .unsurveyed rfl (List.mem_cons_of_mem _ List.mem_cons_self) rfl
  obtain ⟨e, refused, -, store, -, undone, results, -⟩ := (refused_without_trace _ _ _).1 _ lacks
  exact ⟨store, undone, e, refused, results⟩

end Reconcile

end WorkflowCatalog
