import WorkflowCatalog.Proofs.Additions
import WorkflowCatalog.Proofs.Reports

/-!
# Taking back a push

A push of a reference adds a version of its short name at most to an entry that has none, at the end of its versions
and not frozen. A delete of the same reference finds this version wherever it was added. So the entries of the
repository are left with the versions that they had before the push.
-/
namespace WorkflowCatalog

open Sync

/-! ## What a push adds to an entry -/

/-- The second list is the first one, or has one version more at its end, which is of that name and not frozen. -/
inductive Version.Appended (n : String) (vs : List Version) : List Version → Prop
  | same : Appended n vs vs
  | added {v : Version} (name : v.name = n) (mutable : v.frozen = false) : Appended n vs (vs ++ [v])

/-- All that a push changes in the versions of an entry without the pushed one. -/
theorem VersionDiff.changes_of_push {existing : List Version} {r : RemoteVersion} {d : VersionDiff}
    (h : diff existing (.ofVersions [r]) .push [] = .ok d) (fresh : find? r.name existing = none) :
    d.changes = [.build true r.name] := by
  obtain ⟨added, updated, removed⟩ := eq_of_diff h
  have listed : firstByName (RemoteListing.ofVersions [r]).versions = [r] := rfl
  have one_added : d.added = [r] := by simp [added, listed, isAdded, fresh]
  have none_updated : d.updated = [] := by simp [updated, listed, isUpdated, fresh]
  have none_removed : d.removed = [] := by simp [removed, isRemoved]
  rw [VersionDiff.changes, one_added, none_updated, none_removed]
  rfl

theorem Keyed.upsert_of_fresh {κ α : Type} [DecidableEq κ] {key : α → κ} {a : α} {xs : List α}
    (fresh : ∀ b ∈ xs, key b ≠ key a) : upsert key a xs = xs ++ [a] := by
  induction xs with
  | nil => rfl
  | cons b bs ih =>
    rw [List.forall_mem_cons] at fresh
    rw [upsert, if_neg fresh.1, ih fresh.2, List.cons_append]

namespace Sync

variable {c : Context} {sources : List VersionSource}

/-- Building a version that the entry does not have appends it, if it can be built. -/
theorem appended_build (w : Work) {n : String} (fresh : w.entry.version? n = none) (isNew : Bool) :
    Version.Appended n w.entry.versions (advance c sources w (.build isNew n)).entry.versions := by
  rw [advance_build]
  cases built : rebuilt? c sources w.entry n with
  | none => exact .same
  | some answer =>
    cases answer with
    | error e => exact .same
    | ok v =>
      obtain ⟨s, -, -, answer⟩ := source_of_rebuilt? built
      obtain ⟨files, checks, isBuilt⟩ := Build.isBuilt_of_answer answer
      have name : v.name = n := name_of_rebuilt? built
      have mutable : v.frozen = false := by
        rw [isBuilt.eq]
        exact isBuilt.mutable
      have others : ∀ u ∈ w.entry.versions, u.name ≠ v.name := by
        rw [name]
        exact Entry.version?_eq_none_iff.mp fresh
      dsimp only
      rw [Entry.versions_upsert, Keyed.upsert_of_fresh others]
      exact .added name mutable

theorem appended_progress (w : Work) {n : String} (fresh : w.entry.version? n = none) {isNew : Bool} {done : List Change}
    (made : done <+: [.build isNew n]) :
    Version.Appended n w.entry.versions (progress c sources w done).entry.versions := by
  cases done with
  | nil => exact .same
  | cons change changes =>
    obtain ⟨rfl, rest⟩ := List.cons_prefix_cons.mp made
    obtain rfl := List.prefix_nil.mp rest
    exact appended_build w fresh isNew

end Sync

namespace Reconcile

variable {c : Context} {s : Store}

/-- A push adds its version at most. -/
theorem appended_pushJob {j : Job} {r : RemoteVersion} (listing : j.listing = .ofVersions [r]) (mode : j.mode = .push)
    (forced : j.forced = []) {old last : Option Entry} {status : Except SyncError Unit} {out : List SyncResult}
    (effect : j.Effect c old status last out) (fresh : old.bind (fun e => e.version? r.name) = none) :
    Version.Appended r.name (versionsOf old) (versionsOf (last.or old)) := by
  obtain rfl | ⟨before, isNew, d, done, begins, made, rfl⟩ := effect.last_eq
  · exact .same
  · have absent : (j.firstWork before d).entry.version? r.name = none := by
      rw [Job.version?_firstWork, begins.version?, fresh]
    have compared := begins.compared
    rw [listing, mode, forced] at compared
    rw [VersionDiff.changes_of_push compared absent] at made
    have appended : Version.Appended r.name (j.firstWork before d).entry.versions
        (progress c j.sources (j.firstWork before d) done).entry.versions := appended_progress _ absent made
    rw [Job.versions_firstWork, ← begins.versionsOf] at appended
    exact appended

/-- Where no entry of the repository has the version, a push appends it to entries, or leaves them with the versions
that they have. -/
theorem appended_run_push (hs : s.WellFormed) (c : Context) {e : WebhookEvent} (type : e.type = .push)
    {r : GitReference} (parsed : GitReference.parse e.gitReference = .ok r) (q : EntryPath)
    (fresh : (s.entry? q).bind (fun f => f.version? r.name) = none) :
    Version.Appended r.name (versionsOf (s.entry? q)) (versionsOf ((run c s (.event e)).store.entry? q)) := by
  have turn := turn_run hs c (.event e) q
  generalize (run c s (.event e)).store.entry? q = new at turn
  cases turn with
  | same => exact .same
  | worked planned job path effect =>
    cases planned with
    | @push _ reference p text m v _ parsed' _ _ listed =>
      obtain rfl : r = reference := Except.ok.inj (parsed.symm.trans parsed')
      obtain ⟨vs, -, first⟩ := listedOn_eq_ok listed
      have named : v.name = r.name := by simpa using List.find?_some first
      obtain ⟨d, -, rfl⟩ := List.mem_map.mp job
      rw [← named] at fresh ⊢
      exact appended_pushJob (r := { v with referenceType := r.type }) rfl rfl rfl effect fresh
  | cut planned =>
    cases planned with
    | delete type' => exact nomatch type.symm.trans type'

/-! ## What a delete leaves -/

/-- Nothing keeps a delete from being carried out. -/
theorem plan_delete {e : WebhookEvent} (type : e.type = .delete) {r : GitReference}
    (parsed : GitReference.parse e.gitReference = .ok r) {p : EntryPath} (repository : repositoryPath e.repository = .ok p)
    (known : s.hasUser e.username = true) (reads : ∀ l, c.world.lookupFault l = none) :
    plan c s (.event e) = .ok (.deletion r.name (s.forRepository p)) := by
  have user := checkedUser_eq_ok (reads .user) known
  simp only [plan, type, planDelete, parsed, user, repository, lookedUp, reads]
  rfl

/-- A delete leaves an entry as it is, or takes the version from it. -/
theorem taken_run_delete (hs : s.WellFormed) (c : Context) {e : WebhookEvent} (type : e.type = .delete) {r : GitReference}
    (parsed : GitReference.parse e.gitReference = .ok r) (q : EntryPath) :
    (run c s (.event e)).store.entry? q = s.entry? q ∨
      ∃ f, s.entry? q = some f ∧ (run c s (.event e)).store.entry? q = some (f.remove r.name) := by
  have turn := turn_run hs c (.event e) q
  generalize (run c s (.event e)).store.entry? q = new at turn
  cases turn with
  | same => exact .inl rfl
  | worked planned =>
    cases planned with
    | push type' => exact nomatch type.symm.trans type'
  | cut planned entry =>
    cases planned with
    | @delete _ reference _ _ parsed' =>
      obtain rfl : r = reference := Except.ok.inj (parsed.symm.trans parsed')
      exact .inr ⟨_, entry, rfl⟩

/-- After a delete no entry of the repository has the version, but where it is frozen. -/
theorem without?_run_delete (hs : s.WellFormed) {e : WebhookEvent} (type : e.type = .delete) {r : GitReference}
    (parsed : GitReference.parse e.gitReference = .ok r) {p : EntryPath} (repository : repositoryPath e.repository = .ok p)
    (known : s.hasUser e.username = true) (reads : ∀ l, c.world.lookupFault l = none)
    (saves : ∀ log, c.world.saveFault log = none) :
    ∀ f ∈ (run c s (.event e)).store.forRepository p, f.without? r.name = none := by
  have plan := plan_delete type parsed repository known reads
  have saved := saved_run c s (.event e)
  rw [store_run]
  generalize (run c s (.event e)).log.saves = es at saved
  cases saved with
  | nothing refused => exact nomatch plan.symm.trans refused
  | acted planned ran =>
    obtain rfl := Except.ok.inj (plan.symm.trans planned)
    cases ran with
    | deletion deletes =>
      rw [deletes.eq_cuts_of_saving saves]
      exact hs.cuts_again r.name p

end Reconcile

/-- Nothing was appended where there is nothing. -/
theorem Version.Appended.eq_nil {n : String} {vs : List Version} (h : Appended n vs []) : vs = [] := by
  generalize nothing : ([] : List Version) = ws at h
  cases h with
  | same => rfl
  | added => exact absurd nothing (by simp)

/-- An appended version is found by its name, and nothing is left of it once it is removed. -/
theorem Version.Appended.restored {n : String} {vs : List Version} {f g : Entry} (h : Appended n vs f.versions)
    (fresh : ∀ v ∈ vs, v.name ≠ n) (taken : g = f ∨ g = f.remove n) (settled : g.without? n = none) :
    g.versions = vs := by
  have absent (v : Version) (hv : v ∈ vs) : ¬ (v.name == n) = true := by simpa using fresh v hv
  generalize versions : f.versions = ws at h
  cases h with
  | same =>
    obtain rfl | rfl := taken
    · exact versions
    · rw [Entry.versions_remove, versions, Version.remove, List.eraseP_of_forall_not absent]
  | @added v name mutable =>
    obtain rfl | rfl := taken
    · have found : g.version? n = some v := by
        rw [Entry.version?, versions, List.find?_append, List.find?_eq_none.mpr absent]
        simp [name]
      rw [Entry.without?, found] at settled
      simp [mutable] at settled
    · rw [Entry.versions_remove, versions, Version.remove, List.eraseP_append_right _ absent]
      simp [name]

/-! ## A push and a delete -/

namespace Reconcile

variable {c c' : Context} {s : Store}

/-- A call leaves the entries of other repositories as they are. -/
theorem entry?_run_elsewhere (hs : s.WellFormed) (c : Context) (call : Call) {q : EntryPath}
    (elsewhere : ¬ call.Concerns q) : (run c s call).store.entry? q = s.entry? q := by
  obtain ⟨ps, out, moves, -, concerned, -⟩ := moves_run hs c call
  exact moves.elsewhere fun hq => elsewhere (concerned q hq).2

theorem hasUser_run (hs : s.WellFormed) (c : Context) (call : Call) (username : String) :
    (run c s call).store.hasUser username = s.hasUser username := by
  rw [Store.hasUser, (Entry.invariant_wellFormed.run hs.entries call).users, Store.hasUser]

/-- An entry on record stays at its path. -/
theorem exists_mem_run (hs : s.WellFormed) (c : Context) (call : Call) {e : Entry} (he : e ∈ s.entries) :
    ∃ f ∈ (run c s call).store.entries, f.path = e.path := by
  have known : (s.entry? e.path).isSome = true := by
    rw [hs.entry?_eq_some_iff.mpr ⟨he, rfl⟩]
    rfl
  obtain ⟨f, found⟩ := Option.isSome_iff_exists.mp (isSome_run hs c call known)
  exact ⟨f, (hs.run c call).entry?_eq_some_iff.mp found⟩

theorem versionsOf_of_mem (hs : s.WellFormed) {e : Entry} (he : e ∈ s.entries) :
    versionsOf (s.entry? e.path) = e.versions := by
  rw [hs.entry?_eq_some_iff.mpr ⟨he, rfl⟩]
  rfl

theorem versionsOf_of_unknown {q : EntryPath} (unknown : ∀ f ∈ s.entries, f.path ≠ q) :
    versionsOf (s.entry? q) = [] := by
  have none : s.entry? q = none := List.find?_eq_none.mpr fun f hf => by simpa using unknown f hf
  rw [none]
  rfl

/-- A delete of the reference that was pushed. -/
structure TakesBack (delete push : WebhookEvent) : Prop where
  pushes : push.type = .push
  deletes : delete.type = .delete
  repository : delete.repository = push.repository
  reference : delete.gitReference = push.gitReference

variable {push delete : WebhookEvent} (back : TakesBack delete push) {r : GitReference}
  (parsed : GitReference.parse push.gitReference = .ok r) (known : s.hasUser delete.username = true)
  (reads : ∀ l, c'.world.lookupFault l = none) (saves : ∀ log, c'.world.saveFault log = none)
include back parsed known reads saves

omit parsed known reads saves in
theorem entry?_push_delete_elsewhere (hs : s.WellFormed) {q : EntryPath} (other : ¬ (Call.event push).Concerns q) :
    (run c' (run c s (.event push)).store (.event delete)).store.entry? q = s.entry? q := by
  have concerns : (Call.event delete).Concerns q ↔ (Call.event push).Concerns q := by
    simp only [Call.Concerns, Call.repository, back.repository]
  have second : ¬ (Call.event delete).Concerns q := fun concerned => other (concerns.mp concerned)
  rw [entry?_run_elsewhere (hs.run c (.event push)) c' _ second, entry?_run_elsewhere hs c _ other]

/-- At an address of the repository there are the versions of before. -/
theorem versionsOf_push_delete (hs : s.WellFormed) {q : EntryPath} (concerned : (Call.event push).Concerns q)
    (fresh : (s.entry? q).bind (fun e => e.version? r.name) = none) :
    versionsOf ((run c' (run c s (.event push)).store (.event delete)).store.entry? q) = versionsOf (s.entry? q) := by
  have hu := hs.run c (.event push)
  have appended := appended_run_push hs c back.pushes parsed q fresh
  have absent : ∀ v ∈ versionsOf (s.entry? q), v.name ≠ r.name := by
    cases found : s.entry? q with
    | none => exact List.forall_mem_nil _
    | some e =>
      rw [found] at fresh
      exact Entry.version?_eq_none_iff.mp fresh
  obtain ⟨p, repository, near⟩ := concerned
  have parsed' : GitReference.parse delete.gitReference = .ok r := by rw [back.reference, parsed]
  have repository' : repositoryPath delete.repository = .ok p := by rw [back.repository]; exact repository
  have known' : (run c s (.event push)).store.hasUser delete.username = true := by rw [hasUser_run hs, known]
  have settled := without?_run_delete (c := c') hu back.deletes parsed' repository' known' reads saves
  have taken := taken_run_delete hu c' back.deletes parsed' q
  have after := hu.run c' (.event delete)
  generalize (run c' (run c s (.event push)).store (.event delete)).store = restored at settled taken after
  cases pushed : (run c s (.event push)).store.entry? q with
  | none =>
    rw [pushed] at appended taken
    obtain same | ⟨f, found, -⟩ := taken
    · rw [same]
      exact appended.eq_nil.symm
    · exact nomatch found
  | some f =>
    rw [pushed] at appended taken
    have left : ∃ g, restored.entry? q = some g ∧ (g = f ∨ g = f.remove r.name) := by
      obtain same | ⟨f', found, cut⟩ := taken
      · exact ⟨f, same, .inl rfl⟩
      · exact ⟨_, cut, .inr (by rw [Option.some.inj found])⟩
    obtain ⟨g, found, taken⟩ := left
    obtain ⟨member, path⟩ := after.entry?_eq_some_iff.mp found
    rw [found]
    exact appended.restored absent taken (settled g (List.mem_filter.mpr ⟨member, path ▸ near⟩))

/-- So it is at every address if no entry of the repository had the version. -/
theorem versionsOf_restored (hs : s.WellFormed)
    (fresh : ∀ e ∈ s.entries, (Call.event push).Concerns e.path → ∀ v ∈ e.versions, v.name ≠ r.name) (q : EntryPath) :
    versionsOf ((run c' (run c s (.event push)).store (.event delete)).store.entry? q) = versionsOf (s.entry? q) := by
  by_cases concerned : (Call.event push).Concerns q
  · refine versionsOf_push_delete back parsed known reads saves hs concerned ?_
    cases found : s.entry? q with
    | none => rfl
    | some e =>
      obtain ⟨member, rfl⟩ := hs.entry?_eq_some_iff.mp found
      exact Entry.version?_eq_none_iff.mpr (fresh e member concerned)
  · rw [entry?_push_delete_elsewhere back hs concerned]

/-- In a catalog that can come about, a push of a reference whose short name no version of the repository has, and then
a delete of it whose look-ups and saves do not fail, leave each entry with the versions that it had, in their order. An
entry that the push has created has none. The entries of other repositories are as they were. A catalog that is held in
memory answers all look-ups; where one fails, the delete is refused and changes nothing. -/
theorem push_then_delete_restores (h : s.Reachable)
    (fresh : ∀ e ∈ s.entries, (Call.event push).Concerns e.path → ∀ v ∈ e.versions, v.name ≠ r.name) :
    let pushed := (run c s (.event push)).store
    let restored := (run c' pushed (.event delete)).store
    (∀ e ∈ s.entries, ∃ f ∈ restored.entries, f.path = e.path ∧ f.versions = e.versions) ∧
    (∀ e ∈ pushed.entries, (∀ f ∈ s.entries, f.path ≠ e.path) →
      ∃ f ∈ restored.entries, f.path = e.path ∧ f.versions = []) ∧
    ∀ e, ¬ (Call.event push).Concerns e.path → (e ∈ restored.entries ↔ e ∈ s.entries) := by
  intro pushed restored
  have hs := h.wellFormed
  have hu : pushed.WellFormed := hs.run c (.event push)
  have after : restored.WellFormed := hu.run c' (.event delete)
  have versions (q : EntryPath) : versionsOf (restored.entry? q) = versionsOf (s.entry? q) :=
    versionsOf_restored back parsed known reads saves hs fresh q
  refine ⟨fun e he => ?_, fun e he new => ?_, fun e other => ?_⟩
  · obtain ⟨f, hf, path⟩ := exists_mem_run hs c (.event push) he
    obtain ⟨g, hg, path'⟩ := exists_mem_run hu c' (.event delete) hf
    have same := versions g.path
    rw [versionsOf_of_mem after hg, path', path, versionsOf_of_mem hs he] at same
    exact ⟨g, hg, path'.trans path, same⟩
  · obtain ⟨f, hf, path⟩ := exists_mem_run hu c' (.event delete) he
    have same := versions f.path
    rw [versionsOf_of_mem after hf, path, versionsOf_of_unknown new] at same
    exact ⟨f, hf, path, same⟩
  · have now := after.entry?_eq_some_iff (p := e.path) (e := e)
    rw [entry?_push_delete_elsewhere back hs other, hs.entry?_eq_some_iff] at now
    simpa using now.symm

omit back parsed known reads saves in
/-- A tag is pushed to the small catalog next to its branch, and then deleted. -/
theorem sample_push_taken_back :
    let c := Sample.context [Sample.main, ⟨"v1", .tag, "c2", none⟩]
    let push : WebhookEvent := ⟨"org/repo", "refs/tags/v1", "alice", "7", .push⟩
    let pushed := (run c Sample.refreshed.1 (.event push)).store
    let restored := (run c pushed (.event { push with type := .delete })).store
    (versionsOf (pushed.entry? Sample.path)).map Version.name = ["main", "v1"] ∧
      ∀ e ∈ Sample.refreshed.1.entries, ∃ f ∈ restored.entries, f.path = e.path ∧ f.versions = e.versions := by
  intro c push pushed restored
  have before : (Sample.refreshed.1.entries.all fun e => e.versions.all fun v => v.name != "v1") = true ∧
      Sample.refreshed.1.hasUser "alice" = true ∧
      (versionsOf (pushed.entry? Sample.path)).map Version.name = ["main", "v1"] := by
    decide +kernel
  obtain ⟨fresh, known, names⟩ := before
  have back : TakesBack { push with type := .delete } push := ⟨rfl, rfl, rfl, rfl⟩
  have parsed : GitReference.parse push.gitReference = .ok ⟨.tag, "v1"⟩ := by decide
  have reads : ∀ l, c.world.lookupFault l = none := fun _ => rfl
  have saves : ∀ log, c.world.saveFault log = none := fun _ => rfl
  have restores := push_then_delete_restores (c := c) back parsed known reads saves Sample.refreshed.2
    fun e he _ v hv => by
      simpa using List.all_eq_true.mp (List.all_eq_true.mp fresh e he) v hv
  exact ⟨names, restores.1⟩

end Reconcile

end WorkflowCatalog
