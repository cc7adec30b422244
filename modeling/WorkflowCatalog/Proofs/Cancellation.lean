import WorkflowCatalog.Proofs.Accounts

/-!
# Calls that are cancelled

Before each change to a version, a push, a refresh and a rebuild look whether they have been cancelled. From the moment
on at which they are, they change no version any more but the one that they have begun with: it is fetched to the end and
saved. What is saved after that can only be the settings of the entry.
-/
namespace WorkflowCatalog

open Pass Sync Reconcile

/-! ## Catalogs with the same versions -/

namespace Store

/-- Each entry has the versions that it has in the other catalog. -/
def SameVersions (s t : Store) : Prop := ∀ q, versionsOf (s.entry? q) = versionsOf (t.entry? q)

/-- Each entry has the versions that it has in the other catalog, apart from one version of one entry. -/
structure SameBut (q : EntryPath) (n : String) (s t : Store) : Prop where
  elsewhere : ∀ p, p ≠ q → versionsOf (s.entry? p) = versionsOf (t.entry? p)
  others : ∀ m, m ≠ n → (s.entry? q).bind (fun e => e.version? m) = (t.entry? q).bind fun e => e.version? m

theorem bind_version? (e : Option Entry) (n : String) :
    (e.bind fun e => e.version? n) = (versionsOf e).find? fun v => v.name == n := by
  cases e <;> rfl

theorem SameVersions.sameBut {s t u : Store} {q : EntryPath} {n : String} (h : SameVersions s t)
    (k : SameBut q n t u) : SameBut q n s u := by
  refine ⟨fun p hp => (h p).trans (k.elsewhere p hp), fun m hm => ?_⟩
  rw [← k.others m hm, bind_version?, bind_version?, h q]

end Store

/-! ## What a build fetches -/

namespace Fetch

/-- All actions are fetches of files at one reference. -/
def AreAt (repository reference : String) (actions : List Action) : Prop :=
  ∀ a ∈ actions, ∃ path, a = .fetch repository reference path

/-- A reading does nothing but fetch files at one reference. -/
def StaysAt (repository reference : String) {α : Type} (f : Fetch α) : Prop :=
  ∀ log, ∃ fetched, (f.run.run log).2 = fetched ++ log ∧ AreAt repository reference fetched

theorem saves_of_areAt {repository reference : String} {fetched : List Action} (h : AreAt repository reference fetched)
    (log : Log) : Log.saves (fetched ++ log) = log.saves := by
  induction fetched with
  | nil => rfl
  | cons a fetched ih =>
    obtain ⟨⟨path, rfl⟩, others⟩ := List.forall_mem_cons.mp h
    exact (Log.saves_cons _ _).trans ((List.append_nil _).trans (ih others))

theorem closed_staysAt (repository reference : String) : Closed (StaysAt repository reference) where
  pure _ := fun log => ⟨[], rfl, List.forall_mem_nil _⟩
  throw _ := fun log => ⟨[], rfl, List.forall_mem_nil _⟩
  bind {α β f g} hf hg := by
    intro log
    obtain ⟨first, run, at_first⟩ := hf log
    rw [run_bind]
    revert run
    rcases f.run.run log with ⟨_ | a, next⟩
    · exact fun run => ⟨first, run, at_first⟩
    · rintro rfl
      obtain ⟨more, run, at_more⟩ := hg a (first ++ log)
      refine ⟨more ++ first, ?_, fun b hb => (List.mem_append.mp hb).elim (at_more b) (at_first b)⟩
      rw [List.append_assoc]
      exact run

theorem staysAt_text (c : Context) (repository reference path : String) :
    StaysAt repository reference (text c repository reference path) := by
  have file : StaysAt repository reference (Fetch.file c repository reference path) :=
    fun log => ⟨[.fetch repository reference path], rfl, List.forall_mem_singleton.mpr ⟨path, rfl⟩⟩
  exact (closed_staysAt repository reference).bind file fun _ => (closed_staysAt repository reference).pure _

theorem staysAt_version (c : Context) (e : Entry) (s : VersionSource) :
    StaysAt e.path.repositoryPath s.remote.name (Build.version c e s) :=
  (closed_staysAt _ _).version (staysAt_text c _ _)

end Fetch

/-! ## Courses of a call -/

namespace Reconcile

/-- The call is about a version: when it last looked it was not cancelled, and since then it has fetched files of that
version only. -/
def Underway (c : Context) (repository n : String) (log : Log) : Prop :=
  ∃ fetched older, log = fetched ++ .poll :: older ∧ c.world.cancelled (.poll :: older) = false ∧
    Fetch.AreAt repository n fetched

/-- Whatever the call does next, it finds that it is cancelled whenever it looks. -/
def IsCancelledFrom (c : Context) (log : Log) : Prop :=
  ∀ more, c.world.cancelled (.poll :: (more ++ log)) = true

/-- How a call may have come to a catalog: a version is only changed while the call is about it, and whatever else is
saved leaves all versions as they are. -/
inductive Course (c : Context) (repository : String) (s : Store) : Log → Store → Prop
  | start : Course c repository s [] s
  | idle {log : Log} {t : Store} {a : Action} (silent : a.saved? = none) (before : Course c repository s log t) :
      Course c repository s (a :: log) t
  | settings {log : Log} {t : Store} {e : Entry} (same : Store.SameVersions (t.save e) t)
      (before : Course c repository s log t) : Course c repository s (.save e :: log) (t.save e)
  | version {log : Log} {t : Store} {e : Entry} {n : String} (address : e.path.repositoryPath = repository)
      (underway : Underway c repository n log) (same : Store.SameBut e.path n (t.save e) t)
      (before : Course c repository s log t) : Course c repository s (.save e :: log) (t.save e)

variable {c : Context} {repository n : String} {s t : Store} {log earlier later : Log}

theorem Course.store (h : Course c repository s log t) : t = log.saves.foldl Store.save s := by
  induction h with
  | start => rfl
  | idle silent _ ih => rw [Log.saves_cons, silent, ih]; exact (congrArg _ (List.append_nil _)).symm
  | settings _ _ ih => rw [Log.saves_cons, List.foldl_append, ← ih]; rfl
  | version _ _ _ _ ih => rw [Log.saves_cons, List.foldl_append, ← ih]; rfl

theorem course_of_saves_eq_nil (h : log.saves = []) : Course c repository s log s := by
  induction log with
  | nil => exact .start
  | cons a log ih =>
    rw [Log.saves_cons, List.append_eq_nil_iff] at h
    exact .idle (Option.toList_eq_nil_iff.mp h.2) (ih h.1)

theorem Course.fetched {fetched : List Action} (at_n : Fetch.AreAt repository n fetched)
    (h : Course c repository s log t) : Course c repository s (fetched ++ log) t := by
  induction fetched with
  | nil => exact h
  | cons a fetched ih =>
    obtain ⟨⟨path, rfl⟩, others⟩ := List.forall_mem_cons.mp at_n
    exact .idle rfl (ih others)

/-- What a cancelled call is about it was about when it was cancelled, and nothing but fetching has been done since. -/
theorem Underway.of_cancelled (h : Underway c repository n (later ++ earlier)) (cancelled : IsCancelledFrom c earlier) :
    Underway c repository n earlier ∧ Fetch.AreAt repository n later := by
  obtain ⟨fetched, older, split, unset, at_n⟩ := h
  obtain ⟨rest, rfl, rfl⟩ | ⟨rest, rfl, looked⟩ := List.append_eq_append_iff.mp split
  · exact ⟨⟨rest, older, rfl, unset, fun a ha => at_n a (List.mem_append_right _ ha)⟩,
      fun a ha => at_n a (List.mem_append_left _ ha)⟩
  · -- The last look cannot be later than the cancellation, since it would have found the call cancelled.
    cases rest with
    | nil =>
      obtain rfl : .poll :: older = earlier := looked
      rw [List.append_nil]
      exact ⟨⟨[], older, rfl, unset, List.forall_mem_nil _⟩, at_n⟩
    | cons a rest =>
      obtain ⟨rfl, rfl⟩ := List.cons_eq_cons.mp looked
      exact nomatch unset.symm.trans (cancelled rest)

/-- From the moment on at which a call is cancelled, all versions stay as they are then, or all but the one that the call
is about. -/
theorem Course.after_cancelled (h : Course c repository s (later ++ earlier) t)
    (cancelled : IsCancelledFrom c earlier) :
    t.SameVersions (earlier.saves.foldl Store.save s) ∨
      ∃ q n, q.repositoryPath = repository ∧ Underway c repository n earlier ∧
        t.SameBut q n (earlier.saves.foldl Store.save s) := by
  induction later generalizing t with
  | nil =>
    obtain rfl := h.store
    exact .inl fun _ => rfl
  | cons a later ih =>
    cases h with
    | idle _ before => exact ih before
    | settings same before =>
      obtain all | ⟨q, n, address, underway, but⟩ := ih before
      · exact .inl fun q => (same q).trans (all q)
      · exact .inr ⟨q, n, address, underway, same.sameBut but⟩
    | @version _ t e n address underway same before =>
      obtain ⟨underway, at_n⟩ := underway.of_cancelled cancelled
      -- It is the first save since, as there have been fetches only.
      have still : t = earlier.saves.foldl Store.save s :=
        before.store.trans (congrArg (List.foldl Store.save s) (Fetch.saves_of_areAt at_n earlier))
      exact .inr ⟨e.path, n, address, underway, still ▸ same⟩

end Reconcile

/-! ## From before to after -/

namespace Pass

variable {α β : Type} {P : Progress → Prop} {Q : α → Progress → Prop} {F : Progress → Prop}

/-- A part of a call that begins like this ends like that, or fails like that. -/
def Leads (P : Progress → Prop) (x : Pass α) (Q : α → Progress → Prop) (F : Progress → Prop) : Prop :=
  ∀ p, P p → match exec x p with
    | (.ok a, q) => Q a q
    | (.error _, q) => F q

theorem Leads.bind {x : Pass α} {f : α → Pass β} {last : β → Progress → Prop} (hx : Leads P x Q F)
    (hf : ∀ a, Leads (Q a) (f a) last F) : Leads P (x >>= f) last F := by
  intro p hp
  have first := hx p hp
  rw [exec_bind]
  revert first
  rcases exec x p with ⟨_ | a, q⟩
  · exact id
  · exact hf a q

theorem Leads.weaken {x : Pass α} {stronger : Progress → Prop} (h : Leads P x Q F)
    (weaker : ∀ p, stronger p → P p) : Leads stronger x Q F := fun p hp => h p (weaker p hp)

/-- What is kept up is there in the end, however that comes about. -/
theorem Leads.holds {x : Pass α} (h : Leads P x (fun _ => F) F) {p : Progress} (hp : P p) :
    F (exec x p).2 := by
  have last := h p hp
  revert last
  rcases exec x p with ⟨_ | a, q⟩
  · exact id
  · exact id

theorem leads_pure {a : α} (h : ∀ p, P p → Q a p) : Leads P (pure a) Q F := h

theorem leads_attempt {f : Fetch α} {Q : Except SyncError α → Progress → Prop}
    (h : ∀ p, P p → Q (f.run.run p.log).1 { p with log := (f.run.run p.log).2 }) :
    Leads P (attempt f) Q F := h

theorem leads_poll {c : Context} {Q : Bool → Progress → Prop}
    (h : ∀ p, P p → Q (c.world.cancelled (.poll :: p.log)) { p with log := .poll :: p.log }) :
    Leads P (poll c) Q F := h

theorem leads_push {r : SyncResult} {Q : Unit → Progress → Prop}
    (h : ∀ p, P p → Q () { p with results := p.results ++ [r] }) : Leads P (push r) Q F := h

theorem leads_stop {r : SyncResult} {e : SyncError}
    (h : ∀ p, P p → F { p with results := p.results ++ [r.fail e.message] }) :
    Leads P (stop r e : Pass α) Q F := h

theorem leads_look {c : Context} {l : Lookup} {f : Store → α} (h : ∀ p, P p → Q (f p.store) p)
    (k : ∀ p, P p → F p) : Leads P (look c l f) Q F := by
  intro p hp
  rw [exec_look]
  cases c.world.lookupFault l with
  | some e => exact k p hp
  | none => exact h p hp

theorem leads_save {c : Context} {e : Entry} {Q : Option SyncError → Progress → Prop}
    (h : ∀ p, P p → Q none { p with store := p.store.save e, log := .save e :: p.log })
    (k : ∀ p err, P p → Q (some err) { p with log := .failedSave e :: p.log }) :
    Leads P (save c e) Q F := by
  intro p hp
  cases fault : c.world.saveFault p.log with
  | none =>
    rw [exec_save fault]
    exact h p hp
  | some err =>
    rw [exec_save_failed fault]
    exact k p err hp

end Pass

/-! ## The course of a call -/

/-- The entry is one of the repository, and it has the versions that are on record for it. -/
structure Entry.OnRecord (repository : String) (e : Entry) (t : Store) : Prop where
  formed : e.WellFormed
  repository : e.path.repositoryPath = repository
  versions : versionsOf (t.entry? e.path) = e.versions

namespace Entry.OnRecord

variable {repository n : String} {t : Store} {e f : Entry} (h : e.OnRecord repository t) (ht : t.WellFormed)
  (hf : f.WellFormed) (path : f.path = e.path)
include h ht hf path

theorem save : f.OnRecord repository (t.save f) := by
  refine ⟨hf, path ▸ h.repository, ?_⟩
  rw [ht.entry?_save hf, if_pos rfl]
  rfl

theorem sameVersions (versions : f.versions = e.versions) : (t.save f).SameVersions t := by
  intro q
  rw [ht.entry?_save hf]
  split
  · rename_i same
    rw [← same, path, h.versions]
    exact versions
  · rfl

theorem sameBut (others : ∀ m, m ≠ n → f.version? m = e.version? m) : (t.save f).SameBut f.path n t := by
  refine ⟨fun p other => ?_, fun m hm => ?_⟩
  · rw [ht.entry?_save hf, if_neg (Ne.symm other)]
  · rw [ht.entry?_save hf, if_pos rfl, Store.bind_version? (t.entry? f.path), path, h.versions]
    exact others m hm

end Entry.OnRecord

/-- The catalog is well-formed, and a call has come to it by a course. -/
def Pass.Follows (c : Context) (repository : String) (s : Store) (p : Progress) : Prop :=
  Course c repository s p.log p.store ∧ p.store.WellFormed

/-- A call works on an entry, and has saved all changes to its versions. -/
def Pass.Keeps (c : Context) (repository : String) (s : Store) (w : Work) (p : Progress) : Prop :=
  Follows c repository s p ∧ w.entry.OnRecord repository p.store

namespace Sync

variable {c : Context} {repository n : String} {s : Store} {sources : List VersionSource} {w : Work}

theorem leads_saved {f : Entry} {r : SyncResult} (formed : w.entry.WellFormed → f.WellFormed)
    (path : f.path = w.entry.path) (others : w.entry.WellFormed → ∀ m, m ≠ n → f.version? m = w.entry.version? m) :
    Leads (fun p => Keeps c repository s w p ∧ Underway c repository n p.log) (saved c w f r)
      (Keeps c repository s) (Follows c repository s) := by
  refine Leads.bind (Q := fun failure p => failure.elim (Keeps c repository s ⟨f, false, r⟩ p) fun _ =>
    Follows c repository s p) (leads_save ?_ ?_) fun failure => ?_
  · rintro p ⟨⟨⟨course, ht⟩, known⟩, underway⟩
    have hf := formed known.formed
    have same := known.sameBut ht hf path (others known.formed)
    exact ⟨⟨.version (path ▸ known.repository) underway same course, ht.save hf⟩, known.save ht hf path⟩
  · rintro p err ⟨⟨⟨course, ht⟩, -⟩, -⟩
    exact ⟨.idle rfl course, ht⟩
  · cases failure with
    | none => exact leads_pure fun _ hp => hp
    | some err => exact leads_stop fun _ hp => hp

theorem leads_failed {name : String} {e : SyncError} :
    Leads (Keeps c repository s w) (failed c w name e) (Keeps c repository s) (Follows c repository s) := by
  unfold failed
  cases c.options.isolation with
  | perVersion => exact leads_pure fun _ hp => hp
  | failFast => exact fun p hp => hp.1

/-- A change that the call makes after it has found itself not cancelled is a change to one version. -/
theorem leads_apply (change : Change) :
    Leads (fun p => Keeps c repository s w p ∧ ∃ older, p.log = .poll :: older ∧ c.world.cancelled p.log = false)
      (apply c sources w change) (Keeps c repository s) (Follows c repository s) := by
  cases change with
  | remove name =>
    refine (leads_saved (n := name) (Entry.invariant_wellFormed.removed name) rfl fun formed m hm => ?_).weaken ?_
    · rw [Entry.version?_remove formed.distinct, if_neg (Ne.symm hm)]
    · rintro p ⟨keeps, older, log, unset⟩
      exact ⟨keeps, [], older, log, log ▸ unset, List.forall_mem_nil _⟩
  | build isNew name =>
    cases found : sources.find? fun u => u.remote.name == name with
    | none =>
      simp only [apply, found]
      exact leads_pure fun _ hp => hp.1
    | some source =>
      simp only [apply, found]
      refine Leads.bind (Q := fun r p => Keeps c repository s w p ∧ Underway c repository source.remote.name p.log ∧
        r = (Build.version c w.entry source).answer) (leads_attempt ?_) fun r => ?_
      · rintro p ⟨⟨⟨course, ht⟩, known⟩, older, log, unset⟩
        obtain ⟨fetched, read, within⟩ := Fetch.staysAt_version c w.entry source p.log
        rw [known.repository] at within
        refine ⟨⟨⟨?_, ht⟩, known⟩, ?_, (Build.steady_version c w.entry source).answer p.log⟩
        · dsimp only
          rw [read]
          exact course.fetched within
        · exact ⟨fetched, older, by rw [← log]; exact read, log ▸ unset, within⟩
      · cases r with
        | error e => exact leads_failed.weaken fun p hp => hp.1
        | ok v =>
          intro p hp
          refine leads_saved (fun formed => Entry.invariant_wellFormed.built formed hp.2.2.symm) rfl
            (fun _ m hm => ?_) p ⟨hp.1, hp.2.1⟩
          rw [Entry.version?_upsert, Build.name_of_answer hp.2.2.symm, if_neg (Ne.symm hm)]

theorem leads_applyAll (changes : List Change) :
    Leads (Keeps c repository s w) (applyAll c sources w changes) (Keeps c repository s) (Follows c repository s) := by
  induction changes generalizing w with
  | nil => exact leads_pure fun _ hp => hp
  | cons change changes ih =>
    refine Leads.bind (Q := fun cancelled p => Keeps c repository s w p ∧ ∃ older, p.log = .poll :: older ∧
      c.world.cancelled p.log = cancelled) (leads_poll ?_) fun cancelled => ?_
    · rintro p ⟨⟨course, ht⟩, known⟩
      exact ⟨⟨⟨.idle rfl course, ht⟩, known⟩, p.log, rfl, rfl⟩
    · cases cancelled with
      | true => exact leads_stop fun _ hp => hp.1.1
      | false => exact (leads_apply change).bind fun w => ih

theorem leads_finish (isNew : Bool) :
    Leads (Keeps c repository s w) (finish c isNew w) (fun _ => Follows c repository s) (Follows c repository s) := by
  unfold finish
  split
  · refine Leads.bind (Q := fun _ => Follows c repository s) (leads_save ?_ ?_) fun failure => ?_
    · rintro p ⟨⟨course, ht⟩, known⟩
      exact ⟨.settings (known.sameVersions ht known.formed rfl rfl) course, ht.save known.formed⟩
    · rintro p err ⟨⟨course, ht⟩, -⟩
      exact ⟨.idle rfl course, ht⟩
    · cases failure with
      | none => exact leads_push fun _ hp => hp
      | some err => exact leads_stop fun _ hp => hp
  · exact leads_push fun _ hp => hp.1

end Sync

namespace Job

variable {c : Context} {repository : String} {s : Store} {j : Job} {js : List Job}

theorem Begins.onRecord {t : Store} {before : Entry} {isNew : Bool} {d : VersionDiff}
    (h : j.Begins (t.entry? j.path) before isNew d) (ht : t.WellFormed) (plain : j.path.IsPlain)
    (address : j.path.repositoryPath = repository) : (withSettings before j.sources).OnRecord repository t := by
  have path : (withSettings before j.sources).path = j.path :=
    (sameCore_withSettings before j.sources).path.trans (h.path fun e found => (ht.entry?_eq_some_iff.mp found).2)
  refine ⟨Entry.invariant_wellFormed.start (fun e found => ht.entries.entry? found) plain h.start, path ▸ address, ?_⟩
  rw [path, h.versionsOf]
  exact (versions_firstWork j before d).symm

theorem leads_run (plain : j.path.IsPlain) (address : j.path.repositoryPath = repository) :
    Leads (Follows c repository s) (j.run c) (fun _ => Follows c repository s) (Follows c repository s) := by
  unfold run Sync.entry
  refine Leads.bind (Q := fun existing p => Follows c repository s p ∧ existing = p.store.entry? j.path)
    (leads_look (fun p hp => ⟨hp, rfl⟩) fun _ hp => hp) fun existing => ?_
  cases start : startingPoint j.path existing j.sources with
  | none => exact leads_pure fun _ hp => hp.1
  | some begun =>
    obtain ⟨before, isNew⟩ := begun
    dsimp only
    cases compared : diff (withSettings before j.sources).versions j.listing j.mode j.forced with
    | error e => exact leads_stop fun _ hp => hp.1
    | ok d =>
      dsimp only
      split
      · split
        · exact leads_pure fun _ hp => hp.1
        · exact leads_push fun _ hp => hp.1
      · refine ((leads_applyAll d.changes).weaken ?_).bind fun w => leads_finish isNew
        rintro p ⟨⟨course, ht⟩, rfl⟩
        have begins : j.Begins (p.store.entry? j.path) before isNew d := ⟨start, compared⟩
        exact ⟨⟨course, ht⟩, begins.onRecord ht plain address⟩

theorem leads_runAll (plain : ∀ j ∈ js, j.path.IsPlain) (address : ∀ j ∈ js, j.path.repositoryPath = repository) :
    Leads (Follows c repository s) (runAll c js) (fun _ => Follows c repository s) (Follows c repository s) := by
  induction js with
  | nil => exact leads_pure fun _ hp => hp
  | cons j js ih =>
    rw [List.forall_mem_cons] at plain address
    exact (leads_run plain.1 address.1).bind fun _ => ih plain.2 address.2

end Job

namespace Reconcile

variable {c : Context} {s : Store} {call : Call}

/-- Any call but a deletion takes a course. -/
theorem course_run (h : s.WellFormed) (other : ∀ e, call = .event e → e.type = .push) :
    Course c call.repository s (run c s call).log (run c s call).store := by
  obtain ⟨q, reads, hx⟩ := performs_pass c call ⟨s, [], []⟩
  have begun : Follows c call.repository s q := by
    rw [Follows, reads.store]
    exact ⟨course_of_saves_eq_nil reads.saves, h⟩
  suffices ended : Follows c call.repository s (exec (pass c call) ⟨s, [], []⟩).2 from ended.1
  rw [hx]
  dsimp only
  cases plan : plan c s call with
  | error e => exact begun
  | ok a =>
    have planned := planned plan
    cases a with
    | deletion name entries =>
      cases planned with
      | delete type => exact nomatch type.symm.trans (other _ rfl)
    | jobs js =>
      exact (Job.leads_runAll planned.plain_jobs planned.address_jobs).holds begun

/-- In a catalog that can come about, from the moment on at which a call is cancelled, all versions of all entries stay as
they are then, apart from one at most: the one that the call was about, which had not been cancelled when it began with
it and has only fetched files of it since. A call that is cancelled before it begins leaves all versions as they were.
Nothing is said of deletions. -/
theorem versions_kept_when_cancelled (h : s.Reachable) (c : Context) (call : Call)
    (other : ∀ e, call = .event e → e.type = .push) :
    (∀ earlier later : Log, (run c s call).log = later ++ earlier → IsCancelledFrom c earlier →
      (run c s call).store.SameVersions (earlier.saves.foldl Store.save s) ∨
        ∃ q n, q.repositoryPath = call.repository ∧ Underway c call.repository n earlier ∧
          (run c s call).store.SameBut q n (earlier.saves.foldl Store.save s)) ∧
      (IsCancelledFrom c [] → (run c s call).store.SameVersions s) := by
  have course := course_run (c := c) h.wellFormed other
  refine ⟨fun earlier later split cancelled => ?_, fun cancelled => ?_⟩
  · rw [split] at course
    exact course.after_cancelled cancelled
  · rw [← List.append_nil (run c s call).log] at course
    obtain same | ⟨q, n, -, ⟨fetched, older, looked, -⟩, -⟩ := course.after_cancelled cancelled
    · exact same
    · exact absurd looked.symm (List.append_ne_nil_of_right_ne_nil _ (List.cons_ne_nil _ _))

end Reconcile

namespace Sample

/-- Of two tags, the call is cancelled while the descriptor of the first is fetched. -/
def hurried : Context := { context [⟨"v1", .tag, "c1", none⟩, ⟨"v2", .tag, "c2", none⟩] with
  world := { (context [⟨"v1", .tag, "c1", none⟩, ⟨"v2", .tag, "c2", none⟩]).world with
    cancelled := fun log => decide (.fetch "org/repo" "v1" "/m" ∈ log) } }

/-- All that has been done when it is cancelled. -/
def moment : Log :=
  [.fetch "org/repo" "v1" "/m", .poll, .fetch "org/repo" "v2" Manifest.path, .fetch "org/repo" "v1" Manifest.path,
    .list "org/repo"]

/-- A call that is cancelled before it begins. -/
def cancelled : Context := { context [main] with world := { (context [main]).world with cancelled := fun _ => true } }

def deleteMain : Call := .event ⟨"org/repo", "refs/heads/main", "alice", "1", .delete⟩

theorem cancelled_hurried : Reconcile.IsCancelledFrom hurried moment := fun more =>
  decide_eq_true (List.mem_cons_of_mem _ (List.mem_append_right more List.mem_cons_self))

/-- The call comes to the moment, and has other versions after it. -/
theorem passes_hurried : moment <:+ (Reconcile.run hurried registered.1 refresh).log ∧
    versionsOf ((Reconcile.run hurried registered.1 refresh).store.entry? path) ≠
      versionsOf (Store.entry? (moment.saves.foldl Store.save registered.1) path) := by decide +kernel

theorem changed_hurried : ¬ (Reconcile.run hurried registered.1 refresh).store.SameVersions
    (moment.saves.foldl Store.save registered.1) := fun same => passes_hurried.2 (same path)

theorem deletes_cancelled : versionsOf ((Reconcile.run cancelled refreshed.1 deleteMain).store.entry? path) ≠
    versionsOf (Store.entry? refreshed.1 path) := by decide +kernel

end Sample

namespace Reconcile

/-- A tag is added although the call has been cancelled before it was saved, and a version is deleted although the call
was cancelled before it began. -/
theorem sample_changed_when_cancelled :
    (∃ earlier later : Log, (run Sample.hurried Sample.registered.1 Sample.refresh).log = later ++ earlier ∧
      IsCancelledFrom Sample.hurried earlier ∧ ¬ (run Sample.hurried Sample.registered.1 Sample.refresh).store.SameVersions
        (earlier.saves.foldl Store.save Sample.registered.1)) ∧
      IsCancelledFrom Sample.cancelled [] ∧
      ¬ (run Sample.cancelled Sample.refreshed.1 Sample.deleteMain).store.SameVersions Sample.refreshed.1 := by
  obtain ⟨later, split⟩ := Sample.passes_hurried.1
  refine ⟨⟨Sample.moment, later, split.symm, Sample.cancelled_hurried, Sample.changed_hurried⟩, fun _ => rfl, ?_⟩
  exact fun same => Sample.deletes_cancelled (same Sample.path)

/-- The tag is all that changes, and the call was about it when it was cancelled. -/
theorem sample_kept_when_cancelled :
    ∃ q n, Underway Sample.hurried "org/repo" n Sample.moment ∧
      (run Sample.hurried Sample.registered.1 Sample.refresh).store.SameBut q n
        (Sample.moment.saves.foldl Store.save Sample.registered.1) := by
  obtain ⟨later, split⟩ := Sample.passes_hurried.1
  have kept := (versions_kept_when_cancelled Sample.registered.2 Sample.hurried Sample.refresh nofun).1
    Sample.moment later split.symm Sample.cancelled_hurried
  obtain ⟨q, n, -, underway, same⟩ := kept.resolve_left Sample.changed_hurried
  exact ⟨q, n, underway, same⟩

end Reconcile

end WorkflowCatalog
