import WorkflowCatalog.Proofs.Parallel

/-!
# Calls on different repositories

A call looks into the catalog for the accounts and for the entries of its repository, and it saves entries of its
repository only, whether they are new or on record. So of two calls on different repositories neither sees what the
other has done. In which order they are made is of no matter, but for the times at which new files are created.
-/
namespace WorkflowCatalog

open Pass

/-- What is not kept is of no matter to the members that are. -/
theorem Keyed.filter_upsert {κ α : Type} [DecidableEq κ] {key : α → κ} {keep : α → Bool} {a : α} {xs : List α}
    (new : keep a = false) (old : ∀ b ∈ xs, key b = key a → keep b = false) :
    (upsert key a xs).filter keep = xs.filter keep := by
  induction xs with
  | nil => rw [upsert_nil, List.filter_cons_of_neg (by simp [new])]
  | cons b bs ih =>
    rw [List.forall_mem_cons] at old
    unfold upsert
    split
    · rename_i same
      rw [List.filter_cons_of_neg (by simp [new]), List.filter_cons_of_neg (by simp [old.1 same])]
    · rw [List.filter_cons, List.filter_cons, ih old.2]

namespace Store

variable {s : Store} {es : List Entry} {p q : EntryPath}

theorem entry?_forRepository (same : q.sameRepository p = true) :
    s.entry? q = (s.forRepository p).find? fun e => e.path == q := by
  rw [forRepository, List.find?_filter, entry?]
  congr 1
  funext e
  by_cases path : e.path = q
  · simp [path, same]
  · simp [path]

/-- Saves of other entries leave those of a repository as they are. -/
theorem WellFormed.forRepository_saves (h : s.WellFormed)
    (others : ∀ e ∈ es, e.WellFormed ∧ e.path.sameRepository p = false) :
    Store.forRepository (es.foldl Store.save s) p = s.forRepository p := by
  induction es generalizing s with
  | nil => rfl
  | cons e es ih =>
    rw [List.forall_mem_cons] at others
    obtain ⟨⟨he, other⟩, others⟩ := others
    rw [List.foldl_cons, ih (h.save he) others]
    exact Keyed.filter_upsert other fun f hf same => by rw [(h.id_eq_iff hf he).mp same, other]

end Store

/-- Two catalogs are the same in all that a call looks at. -/
structure Call.Shares (call : Call) (s u : Store) : Prop where
  users : u.users = s.users
  entries : ∀ p, Reconcile.repositoryPath call.repository = .ok p → u.forRepository p = s.forRepository p

namespace Reconcile

variable {c : Context} {s u : Store} {call : Call} {now t : Timestamp}

/-! ## What a call has to do with the catalog -/

/-- All that a call saves is well-formed and of its repository. -/
theorem Saved.concerned {es : List Entry} (h : Saved c s call es) (hs : s.WellFormed) :
    ∀ f ∈ es, f.WellFormed ∧ call.Concerns f.path := by
  cases h with
  | nothing => exact fun f hf => absurd hf List.not_mem_nil
  | acted plan ran =>
    have planned := planned plan
    cases ran with
    | jobs runs =>
      obtain ⟨p, repository, paths⟩ := planned.path_of_jobs
      intro f hf
      obtain ⟨valid, j, hj, path⟩ := runs.wellFormed hs planned.plain_jobs f hf
      exact ⟨valid, p, repository, path ▸ EntryPath.sameRepository_iff.mpr (paths j hj)⟩
    | deletion deletes =>
      intro f hf
      obtain ⟨e, he, cut⟩ := List.mem_filterMap.mp (deletes.prefix_cuts.subset hf)
      obtain rfl := Entry.eq_of_without? cut
      cases planned with
      | delete _ _ repository =>
        obtain ⟨member, same⟩ := List.mem_filter.mp he
        exact ⟨Entry.invariant_wellFormed.removed _ (hs.entries e member), _, repository, same⟩

/-- There is the same to be done wherever the accounts and the entries of the repository are the same. -/
theorem plan_congr (shares : call.Shares s u) : plan c u call = plan c s call := by
  have known (username : String) : checkedUser c u username = checkedUser c s username := by
    unfold checkedUser Store.hasUser
    rw [shares.users]
  cases call with
  | event e =>
    simp only [plan]
    cases e.type with
    | push => simp only [planPush, known]
    | delete =>
      simp only [planDelete, known]
      cases path : repositoryPath e.repository with
      | error err => rfl
      | ok p => simp only [bind, Except.bind, shares.entries p path]
  | refresh repository username =>
    simp only [plan, planRefresh, known]
    cases path : repositoryPath repository with
    | error err => rfl
    | ok p => simp only [bind, Except.bind, shares.entries p path]
  | refreshVersion repository entry version username => simp only [plan, planRefreshVersion, known]

/-- What there is to be done goes the same way in both catalogs. -/
theorem inStep_agenda (quiet : c.IsQuiet) (hs : s.WellFormed) (hu : u.WellFormed) (shares : call.Shares s u)
    {a : Agenda} (planned : Planned c s call a) {p q : Progress} (hp : p.store = s) (hq : q.store = u) :
    InStep (Entry.datedSince t s) Eq (a.run c) (a.run (c.withClock now)) p q := by
  cases a with
  | deletion name entries => exact parallel_deleteFrom quiet (quiet.withClock now) _ name entries p q
  | jobs js =>
    obtain ⟨path, repository, paths⟩ := planned.path_of_jobs
    subst hp hq
    refine Job.inStep_runAll quiet hs planned.plain_jobs planned.distinct_jobs hs hu fun j hj => ⟨rfl, ?_⟩
    have same := EntryPath.sameRepository_iff.mpr (paths j hj)
    rw [Store.entry?_forRepository same, Store.entry?_forRepository same, shares.entries path repository]

/-- A call goes the same way in two catalogs that are the same in all that it looks at. -/
theorem inStep_pass (quiet : c.IsQuiet) (hs : s.WellFormed) (hu : u.WellFormed) (shares : call.Shares s u)
    (now t : Timestamp) :
    InStep (Entry.datedSince t s) Eq (pass c call) (pass (c.withClock now) call) ⟨s, [], []⟩ ⟨u, [], []⟩ := by
  obtain ⟨p, reads, hx⟩ := performs_pass c call ⟨s, [], []⟩
  obtain ⟨q, reads', hy⟩ := performs_pass (c.withClock now) call ⟨u, [], []⟩
  have read := reads.abreast reads' (Entry.datedSince t s)
  dsimp only at hx hy
  rw [plan_withClock, plan_congr shares] at hy
  cases todo : plan c s call with
  | error err =>
    rw [todo] at hx hy
    refine ⟨?_, ?_⟩ <;> rw [hx, hy]
    · exact .error err
    · exact read
  | ok a =>
    rw [todo] at hx hy
    obtain ⟨ends, abreast⟩ := inStep_agenda quiet hs hu shares (planned todo) reads.store reads'.store
    refine ⟨?_, ?_⟩ <;> rw [hx, hy]
    · exact ends
    · exact read.trans abreast

theorem results_and_saves (quiet : c.IsQuiet) (hs : s.WellFormed) (hu : u.WellFormed) (shares : call.Shares s u)
    (now t : Timestamp) :
    (run (c.withClock now) u call).results = (run c s call).results ∧
      (run (c.withClock now) u call).log.saves.map (Entry.datedSince t s) =
        (run c s call).log.saves.map (Entry.datedSince t s) := by
  obtain ⟨ends, ⟨out, told, told'⟩, es, fs, same, wrote, wrote'⟩ := inStep_pass quiet hs hu shares now t
  constructor
  · have results (c : Context) (s : Store) : (run c s call).results =
        closed (exec (pass c call) ⟨s, [], []⟩).1 (exec (pass c call) ⟨s, [], []⟩).2.results := rfl
    rw [results, results, told, told', ends.eq]
  · have saves : (run c s call).log.saves = es := wrote.saves
    have saves' : (run (c.withClock now) u call).log.saves = fs := wrote'.saves
    rw [saves, saves', same]

/-! ## One call before the other -/

/-- No address is one of two repositories. -/
theorem unconcerned {other : Call} (different : call.repository ≠ other.repository) {q : EntryPath}
    (concerned : call.Concerns q) : ¬ other.Concerns q := by
  rintro ⟨p', repository', same'⟩
  obtain ⟨p, repository, same⟩ := concerned
  obtain ⟨name, rfl⟩ := EntryPath.sameRepository_iff.mp same
  obtain ⟨name', e⟩ := EntryPath.sameRepository_iff.mp same'
  have address := congrArg EntryPath.repositoryPath e
  refine different ?_
  rw [← address_of_repositoryPath repository, ← address_of_repositoryPath repository']
  exact address

/-- A call on another repository leaves all that a call looks at as it is. -/
theorem shares_run {other : Call} (hs : s.WellFormed) (c : Context) (different : call.repository ≠ other.repository) :
    call.Shares s (run c s other).store := by
  refine ⟨(Entry.invariant_wellFormed.run hs.entries other).users, fun p repository => ?_⟩
  rw [store_run]
  refine hs.forRepository_saves fun e he => ?_
  obtain ⟨valid, concerned⟩ := (saved_run c s other).concerned hs e he
  refine ⟨valid, Bool.eq_false_iff.mpr fun same => ?_⟩
  exact unconcerned different ⟨p, repository, same⟩ concerned

/-- What a call has saved last for an address, but for the times of files that are new since the catalog was `u`. -/
def lastSaved (t : Timestamp) (u : Store) (o : Outcome) (q : EntryPath) : Option Entry :=
  (o.log.saves.map (Entry.datedSince t u)).reverse.find? fun e => e.path == q

theorem lastSaved_eq_none (hs : s.WellFormed) (c : Context) {q : EntryPath} (elsewhere : ¬ call.Concerns q) :
    lastSaved t u (run c s call) q = none := by
  rw [lastSaved, List.find?_eq_none]
  intro e he path
  obtain ⟨f, hf, rfl⟩ := List.mem_map.mp (List.mem_reverse.mp he)
  obtain ⟨-, concerned⟩ := (saved_run c s call).concerned hs f hf
  exact elsewhere (beq_iff_eq.mp path ▸ concerned)

/-- At each address there is what the call has saved for it last. -/
theorem entry?_run_datedSince (hs : s.WellFormed) (c : Context) (call : Call) (q : EntryPath) :
    ((run c s call).store.entry? q).map (Entry.datedSince t u) =
      (lastSaved t u (run c s call) q).or ((s.entry? q).map (Entry.datedSince t u)) := by
  have valid : ∀ f ∈ (run c s call).log.saves, f.WellFormed := fun f hf =>
    ((saved_run c s call).concerned hs f hf).1
  have same : (fun e : Entry => e.path == q) ∘ Entry.datedSince t u = fun e => e.path == q := rfl
  rw [store_run, hs.entry?_saves valid, Option.map_or, lastSaved, ← List.map_reverse, List.find?_map, same]

/-- Calls on different repositories commute. If nothing disturbs them, it is of no matter which of two is made first,
and at what times: each tells the same results, the accounts are the same, and at each address there is the same entry,
but for the times of the files that are new. -/
theorem runs_commute (h : s.Reachable) {c₁ c₂ : Context} (quiet₁ : c₁.IsQuiet) (quiet₂ : c₂.IsQuiet)
    {call₁ call₂ : Call} (different : call₁.repository ≠ call₂.repository) (t₁ t₂ t : Timestamp) :
    let first := run c₁ s call₁
    let second := run c₂ first.store call₂
    let second' := run (c₂.withClock t₂) s call₂
    let first' := run (c₁.withClock t₁) second'.store call₁
    first'.results = first.results ∧ first'.recorded = first.recorded ∧
      second'.results = second.results ∧ second'.recorded = second.recorded ∧
      first'.store.users = second.store.users ∧
      ∀ q, (first'.store.entry? q).map (Entry.datedSince t s) = (second.store.entry? q).map (Entry.datedSince t s) := by
  intro first second second' first'
  have hs := h.wellFormed
  have h₁ : first.store.WellFormed := hs.run c₁ call₁
  have h₂ : second'.store.WellFormed := hs.run (c₂.withClock t₂) call₂
  have users (c : Context) {s : Store} (hs : s.WellFormed) (call : Call) : (run c s call).store.users = s.users :=
    (Entry.invariant_wellFormed.run hs.entries call).users
  obtain ⟨results₁, saves₁⟩ := results_and_saves quiet₁ hs h₂ (shares_run hs (c₂.withClock t₂) different) t₁ t
  obtain ⟨results₂, saves₂⟩ := results_and_saves (quiet₂.withClock t₂) hs h₁ (shares_run hs c₁ different.symm) c₂.now t
  refine ⟨results₁, congrArg (List.filter c₁.world.records) results₁, results₂.symm,
    (congrArg (List.filter c₂.world.records) results₂).symm, ?_, fun q => ?_⟩
  · rw [users _ h₂, users _ hs, users _ h₁, users _ hs]
  · have last₁ : lastSaved t s first' q = lastSaved t s first q := by rw [lastSaved, saves₁, lastSaved]
    have last₂ : lastSaved t s second q = lastSaved t s second' q := by
      rw [lastSaved, lastSaved]
      exact congrArg (fun es : List Entry => es.reverse.find? fun e => e.path == q) saves₂
    rw [entry?_run_datedSince h₂, entry?_run_datedSince hs, entry?_run_datedSince h₁, entry?_run_datedSince hs]
    rw [last₁, last₂]
    by_cases concerned : call₁.Concerns q
    · rw [lastSaved_eq_none hs _ (unconcerned different concerned), Option.none_or, Option.none_or]
    · rw [lastSaved_eq_none hs _ concerned, Option.none_or, Option.none_or]

/-- Two repositories are added to a catalog, one after the other and the other way round. -/
theorem sample_runs_commute :
    let c := Sample.context [Sample.main]
    let late := c.withClock ⟨"2025-03-01T00:00:00Z", by decide +kernel⟩
    let other : Call := .refresh "org/other" "alice"
    let second := run c (run c Sample.registered.1 Sample.refresh).store other
    let first' := run late (run late Sample.registered.1 other).store Sample.refresh
    first'.results = (run c Sample.registered.1 Sample.refresh).results ∧
      first'.results.map SyncResult.added = [["main"]] ∧ second.results.map SyncResult.added = [["main"]] ∧
      ∀ q, (first'.store.entry? q).map (Entry.datedSince Sample.now Sample.registered.1) =
        (second.store.entry? q).map (Entry.datedSince Sample.now Sample.registered.1) := by
  intro c late other second first'
  have quiet : c.IsQuiet := ⟨fun _ => rfl, fun _ => rfl⟩
  have different : Sample.refresh.repository ≠ other.repository := by decide
  have told : (run c Sample.registered.1 Sample.refresh).results.map SyncResult.added = [["main"]] := by
    decide +kernel
  have told' : (run late Sample.registered.1 other).results.map SyncResult.added = [["main"]] := by decide +kernel
  obtain ⟨results, -, results', -, -, entries⟩ :=
    runs_commute Sample.registered.2 quiet quiet different late.now late.now Sample.now
  exact ⟨results, results ▸ told, results' ▸ told', entries⟩

end Reconcile

end WorkflowCatalog
