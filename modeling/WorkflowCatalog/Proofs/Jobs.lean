import WorkflowCatalog.Proofs.Progress

/-!
# What a call does to one entry

A call works on one entry at a time: it compares the entry with a listing and makes the changes. Whatever
happens, it leaves the store as it was or saves that one entry, and it hands in at most one result. `Effect`
lists the ways in which this may end; all that is said of whole calls is derived from it.
-/
namespace WorkflowCatalog

/-- What a call is to do for one entry. -/
structure Job where
  path : EntryPath
  sources : List VersionSource
  listing : RemoteListing
  mode : DiffMode
  forced : List String

namespace Job

open Pass Sync

def run (c : Context) (j : Job) : Pass Unit := Sync.entry c j.path j.sources j.listing j.mode j.forced

theorem startingPoint_eq_some {p : EntryPath} {old : Option Entry} {sources : List VersionSource} {before : Entry}
    {isNew : Bool} (h : startingPoint p old sources = some (before, isNew)) :
    (old = some before ∧ isNew = false) ∨
      (old = none ∧ isNew = true ∧ ∃ s rest, sources = s :: rest ∧ before = .ofDeclaration p s.declaration) := by
  unfold startingPoint at h
  split at h
  · obtain ⟨rfl, rfl⟩ := Prod.mk.inj (Option.some.inj h)
    exact .inl ⟨rfl, rfl⟩
  · obtain ⟨rfl, rfl⟩ := Prod.mk.inj (Option.some.inj h)
    exact .inr ⟨rfl, rfl, _, _, rfl, rfl⟩
  · simp at h

/-- There is an entry to work on, on record or new, and its differences from the listing are known. -/
structure Begins (j : Job) (old : Option Entry) (before : Entry) (isNew : Bool) (d : VersionDiff) : Prop where
  start : startingPoint j.path old j.sources = some (before, isNew)
  compared : diff (withSettings before j.sources).versions j.listing j.mode j.forced = .ok d

namespace Begins

variable {j : Job} {old : Option Entry} {before : Entry} {isNew : Bool} {d : VersionDiff}
  (h : j.Begins old before isNew d)
include h

theorem path (hold : ∀ e, old = some e → e.path = j.path) : before.path = j.path := by
  obtain ⟨found, -⟩ | ⟨-, -, s, _, -, rfl⟩ := startingPoint_eq_some h.start
  · exact hold before found
  · rfl

theorem distinct (hold : ∀ e, old = some e → e.HasDistinctNames) : before.HasDistinctNames := by
  obtain ⟨found, -⟩ | ⟨-, -, s, _, -, rfl⟩ := startingPoint_eq_some h.start
  · exact hold before found
  · exact List.nodup_nil

theorem version? (n : String) : before.version? n = old.bind fun e => e.version? n := by
  obtain ⟨rfl, -⟩ | ⟨rfl, -, s, _, -, rfl⟩ := startingPoint_eq_some h.start <;> rfl

end Begins

/-- An entry on record is what the job starts from. -/
theorem Begins.eq {j : Job} {e before : Entry} {isNew : Bool} {d : VersionDiff} (h : j.Begins (some e) before isNew d) :
    before = e := by
  obtain ⟨found, -⟩ | ⟨absent, -⟩ := startingPoint_eq_some h.start
  · exact (Option.some.inj found).symm
  · exact nomatch absent

/-- The work before any change. -/
def firstWork (j : Job) (before : Entry) (d : VersionDiff) : Work :=
  ⟨withSettings before j.sources, decide (withSettings before j.sources ≠ before),
    { SyncResult.forEntry j.path with skippedFrozen := d.frozen }⟩

theorem versions_firstWork (j : Job) (before : Entry) (d : VersionDiff) :
    (j.firstWork before d).entry.versions = before.versions := by
  unfold firstWork withSettings
  cases j.sources <;> rfl

theorem version?_firstWork (j : Job) (before : Entry) (d : VersionDiff) (n : String) :
    (j.firstWork before d).entry.version? n = before.version? n := by
  rw [Entry.version?, versions_firstWork, Entry.version?]

theorem distinct_firstWork {j : Job} {before : Entry} {d : VersionDiff} (h : before.HasDistinctNames) :
    (j.firstWork before d).entry.HasDistinctNames := by
  rwa [Entry.HasDistinctNames, versions_firstWork]

/-- What the catalog was given last while the work came from `w` to `w'`: nothing, if nothing was changed, or the
entry as it is now. -/
inductive Recorded (w w' : Work) : Option Entry → Prop
  | nothing (entry : w'.entry = w.entry) (unsaved : w'.unsaved = w.unsaved)
      (told : w'.result.SameChanges w.result) : Recorded w w' none
  | entry (unsaved : w'.unsaved = false) : Recorded w w' (some w'.entry)

/-- How a job may end, given the entry on record: whether the call goes on, the entry that is saved last, and the
results that are handed in. -/
inductive Effect (c : Context) (j : Job) (old : Option Entry) :
    Except SyncError Unit → Option Entry → List SyncResult → Prop
  | undeclared (absent : old = none) (sources : j.sources = []) : Effect c j old (.ok ()) none []
  | unread {err : SyncError} : Effect c j old (.error err) none []
  | refused {before : Entry} {isNew : Bool} {err : SyncError}
      (start : startingPoint j.path old j.sources = some (before, isNew))
      (compared : diff (withSettings before j.sources).versions j.listing j.mode j.forced = .error err) :
      Effect c j old (.error err) none [(SyncResult.forEntry j.path).fail err.message]
  | stopped {before : Entry} {isNew : Bool} {d : VersionDiff} {done : List Change} {err : SyncError}
      {r : SyncResult} {last : Option Entry} (begins : j.Begins old before isNew d) (made : done <+: d.changes)
      (recorded : Recorded (j.firstWork before d) (progress c j.sources (j.firstWork before d) done) last)
      (result : r = (progress c j.sources (j.firstWork before d) done).result ∨
        r = (progress c j.sources (j.firstWork before d) done).result.fail err.message)
      (failed : r.success = false) : Effect c j old (.error err) last [r]
  | finished {before : Entry} {isNew : Bool} {d : VersionDiff} {w : Work} {last : Option Entry}
      {out : List SyncResult} (begins : j.Begins old before isNew d) (recorded : Recorded (j.firstWork before d) w last)
      (entry : w.entry = (progress c j.sources (j.firstWork before d) d.changes).entry)
      (result : w.result = (progress c j.sources (j.firstWork before d) d.changes).result)
      (unsaved : w.unsaved = true → isNew = true ∧ w.entry.versions = [])
      (told : out = [w.result] ∨ out = [] ∧ d.isEmpty = true) : Effect c j old (.ok ()) last out

theorem recorded_of_stored {s s' : Store} {w w' : Work} (h : Stored s w w' s') :
    ∃ last, Recorded w w' last ∧ s' = s.saving last := by
  rcases h with ⟨hs, entry, unsaved, told⟩ | ⟨hs, unsaved⟩
  · exact ⟨none, .nothing entry unsaved told, hs⟩
  · exact ⟨_, .entry unsaved, hs⟩

theorem changes_of_isEmpty {d : VersionDiff} (h : d.isEmpty = true) : d.changes = [] := by
  simp only [VersionDiff.isEmpty, Bool.and_eq_true, List.isEmpty_iff] at h
  simp [VersionDiff.changes, h]

/-- After the changes the settings are saved if nothing has saved them along with it. -/
theorem exec_finish (c : Context) (isNew : Bool) (w : Work) (p : Progress) :
    ∃ q, (exec (finish c isNew w) p = (.ok (), q) ∧ q.results = p.results ++ [w.result] ∧
        ((q.store = p.store ∧ (w.unsaved = true → isNew = true ∧ w.entry.versions = [])) ∨
          q.store = p.store.save w.entry)) ∨
      ∃ err, exec (finish c isNew w) p = (.error err, q) ∧ q.store = p.store ∧
        Halted w err p.results q.results (w.result.fail err.message) := by
  unfold finish
  split
  · rename_i hu
    cases hf : c.world.saveFault p.log with
    | none =>
      rw [exec_bind_ok (exec_save hf w.entry)]
      exact ⟨_, .inl ⟨exec_push _ _, rfl, .inr rfl⟩⟩
    | some err =>
      rw [exec_bind_ok (exec_save_failed hf w.entry)]
      exact ⟨_, .inr ⟨err, exec_stop _ _ _, rfl, .inr rfl, rfl, rfl⟩⟩
  · rename_i hu
    refine ⟨_, .inl ⟨exec_push _ _, rfl, .inl ⟨rfl, fun h => ?_⟩⟩⟩
    simpa [h] using hu

/-- Where nothing differs and the settings are those on record, nothing is done. -/
theorem Effect.idle {c : Context} {j : Job} {old : Option Entry} {before : Entry} {isNew : Bool} {d : VersionDiff}
    (begins : j.Begins old before isNew d) (empty : d.isEmpty = true) (settled : withSettings before j.sources = before)
    {out : List SyncResult} (told : out = [(j.firstWork before d).result] ∨ out = []) :
    Effect c j old (.ok ()) none out := by
  refine .finished begins (.nothing rfl rfl (.refl _)) ?_ ?_ ?_ (told.imp_right fun h => ⟨h, empty⟩)
  · rw [changes_of_isEmpty empty, progress_nil]
  · rw [changes_of_isEmpty empty, progress_nil]
  · intro unsaved
    simp [firstWork, settled] at unsaved

/-- The changes are made and the work is finished, or the call stops on the way. -/
theorem exec_changes (c : Context) (j : Job) {old : Option Entry} {before : Entry} {isNew : Bool} {d : VersionDiff}
    (begins : j.Begins old before isNew d) (p : Progress) :
    ∃ r q last out, exec (applyAll c j.sources (j.firstWork before d) d.changes >>= finish c isNew) p = (r, q) ∧
      q.results = p.results ++ out ∧ q.store = p.store.saving last ∧ Effect c j old r last out := by
  obtain ⟨q, ⟨hx, hr, stored⟩ | ⟨err, done, r, hx, made, stored, halted⟩⟩ :=
    exec_applyAll c j.sources (j.firstWork before d) d.changes p
  · rw [exec_bind_ok hx]
    obtain ⟨t, ⟨kx, kr, ks⟩ | ⟨err, kx, ks, halted⟩⟩ :=
      exec_finish c isNew (progress c j.sources (j.firstWork before d) d.changes) q
    · rcases ks with ⟨ks, unsaved⟩ | ks
      · obtain ⟨last, recorded, hs⟩ := recorded_of_stored stored
        exact ⟨_, t, last, _, kx, kr.trans (by rw [hr]), ks.trans hs,
          .finished begins recorded rfl rfl unsaved (.inl rfl)⟩
      · -- The settings were saved on their own, so none are unsaved any more.
        let w := { progress c j.sources (j.firstWork before d) d.changes with unsaved := false }
        have saved : t.store = p.store.save w.entry := by
          rcases stored with ⟨hq, -⟩ | ⟨hq, -⟩
          · rw [ks, hq]
          · rw [ks, hq, Store.save_save rfl]
        exact ⟨_, t, some w.entry, _, kx, kr.trans (by rw [hr]), saved,
          .finished (w := w) begins (.entry rfl) rfl rfl (fun h => nomatch h) (.inl rfl)⟩
    · obtain ⟨last, recorded, hs⟩ := recorded_of_stored stored
      exact ⟨_, t, last, _, kx, halted.results.trans (by rw [hr]), ks.trans hs,
        .stopped begins (List.prefix_refl _) recorded halted.result halted.failed⟩
  · rw [exec_bind_error hx]
    obtain ⟨last, recorded, hs⟩ := recorded_of_stored stored
    exact ⟨_, q, last, _, rfl, halted.results, hs, .stopped begins made recorded halted.result halted.failed⟩

theorem exec_run (c : Context) (j : Job) (p : Progress) :
    ∃ r q last out, exec (j.run c) p = (r, q) ∧ q.results = p.results ++ out ∧ q.store = p.store.saving last ∧
      Effect c j (p.store.entry? j.path) r last out := by
  unfold run Sync.entry
  cases hf : c.world.lookupFault .entry with
  | some err =>
    rw [exec_bind_error (show exec (look c .entry fun s => s.entry? j.path) p = (.error err, p) by rw [exec_look, hf])]
    exact ⟨_, p, none, [], rfl, by simp, rfl, .unread⟩
  | none =>
    rw [exec_bind_ok (show exec (look c .entry fun s => s.entry? j.path) p = (.ok _, p) by rw [exec_look, hf])]
    cases hs : startingPoint j.path (p.store.entry? j.path) j.sources with
    | none =>
      refine ⟨_, p, none, [], rfl, by simp, rfl, ?_⟩
      unfold startingPoint at hs
      split at hs <;> simp at hs
      rename_i absent sources
      exact .undeclared absent sources
    | some begun =>
      obtain ⟨before, isNew⟩ := begun
      cases hd : diff (withSettings before j.sources).versions j.listing j.mode j.forced with
      | error err =>
        simp only [hd]
        exact ⟨_, _, none, _, exec_stop _ _ _, rfl, rfl, .refused hs hd⟩
      | ok d =>
        simp only [hd]
        have begins : j.Begins (p.store.entry? j.path) before isNew d := ⟨hs, hd⟩
        split
        · rename_i idle
          simp only [Bool.and_eq_true, Bool.not_eq_true', decide_eq_false_iff_not, Decidable.not_not] at idle
          split
          · exact ⟨_, p, none, [], rfl, by simp, rfl, .idle begins idle.1 idle.2 (.inr rfl)⟩
          · exact ⟨_, _, none, _, exec_push _ _, rfl, rfl, .idle begins idle.1 idle.2 (.inl rfl)⟩
        · exact exec_changes c j begins p

namespace Effect

variable {c : Context} {j : Job} {old last : Option Entry} {r : Except SyncError Unit} {out : List SyncResult}

/-- What is saved last is the entry after some of the changes. -/
theorem last_eq (h : j.Effect c old r last out) :
    last = none ∨ ∃ before isNew d done, j.Begins old before isNew d ∧ done <+: d.changes ∧
      last = some (progress c j.sources (j.firstWork before d) done).entry := by
  cases h with
  | undeclared => exact .inl rfl
  | unread => exact .inl rfl
  | refused => exact .inl rfl
  | stopped begins made recorded =>
    cases recorded with
    | nothing => exact .inl rfl
    | entry => exact .inr ⟨_, _, _, _, begins, made, rfl⟩
  | finished begins recorded entry =>
    cases recorded with
    | nothing => exact .inl rfl
    | entry => exact .inr ⟨_, _, _, _, begins, List.prefix_refl _, by rw [entry]⟩

theorem path_last (h : j.Effect c old r last out) (hold : ∀ e, old = some e → e.path = j.path) :
    ∀ e, last = some e → e.path = j.path := by
  intro e saved
  obtain rfl | ⟨before, isNew, d, done, begins, -, rfl⟩ := h.last_eq
  · exact nomatch saved
  · rw [← Option.some.inj saved, (core_progress c j.sources _ done).path]
    exact (sameCore_withSettings before j.sources).path.trans (begins.path hold)

/-- Where a result tells of a version that was added or updated, the entry was saved with it. -/
theorem of_told (h : j.Effect c old r last out) {x : SyncResult} (hx : x ∈ out) {isNew : Bool} {n : String}
    (hn : n ∈ told isNew x) :
    ∃ before new d done, j.Begins old before new d ∧ done <+: d.changes ∧
      last = some (progress c j.sources (j.firstWork before d) done).entry ∧
      n ∈ told isNew (progress c j.sources (j.firstWork before d) done).result ∧ x.entry = some j.path.toText := by
  have nothing_first : ∀ before d, told isNew (j.firstWork before d).result = [] := fun _ _ => by cases isNew <;> rfl
  cases h with
  | undeclared => simp at hx
  | unread => simp at hx
  | refused =>
    obtain rfl := List.mem_singleton.mp hx
    cases isNew <;> simp [told, SyncResult.fail, SyncResult.forEntry, SyncResult.nothing] at hn
  | @stopped before isNew' d done err _ _ begins made recorded result failed =>
    obtain rfl := List.mem_singleton.mp hx
    have same : x.SameChanges (progress c j.sources (j.firstWork before d) done).result := by
      rcases result with rfl | rfl
      · exact .refl _
      · exact SyncResult.sameChanges_fail _ _
    rw [told_eq same] at hn
    cases recorded with
    | nothing _ _ told =>
      rw [told_eq told, nothing_first] at hn
      simp at hn
    | entry => exact ⟨_, _, _, _, begins, made, rfl, hn, same.entry.trans (entry_progress _ _)⟩
  | @finished before isNew' d w _ _ begins recorded entry result unsaved told' =>
    rcases told' with rfl | ⟨rfl, -⟩
    · obtain rfl := List.mem_singleton.mp hx
      cases recorded with
      | nothing _ _ told =>
        rw [told_eq told, nothing_first] at hn
        simp at hn
      | entry =>
        rw [result] at hn ⊢
        exact ⟨_, _, _, _, begins, List.prefix_refl _, by rw [entry], hn, entry_progress _ _⟩
    · simp at hx

/-- A job that was done in full, without a failure, leaves the entry as it is after all changes. There is none if
it would be new and have no versions. -/
theorem of_success (h : j.Effect c old (.ok ()) last out) (success : ∀ x ∈ out, x.success = true) :
    (old = none ∧ last = none ∧ j.sources = []) ∨ ∃ before isNew d, j.Begins old before isNew d ∧
      (progress c j.sources (j.firstWork before d) d.changes).result.success = true ∧
      (last.or old = some (progress c j.sources (j.firstWork before d) d.changes).entry ∨
        (old = none ∧ last = none ∧ (progress c j.sources (j.firstWork before d) d.changes).entry.versions = [])) := by
  cases h with
  | undeclared absent sources => exact .inl ⟨absent, rfl, sources⟩
  | @finished before isNew d w _ _ begins recorded entry result unsaved told =>
    refine .inr ⟨before, isNew, d, begins, ?_, ?_⟩
    · rcases told with rfl | ⟨-, idle⟩
      · exact result ▸ success _ List.mem_cons_self
      · rw [changes_of_isEmpty idle]
        rfl
    · rw [← entry]
      cases recorded with
      | entry => exact .inl rfl
      | nothing same still _ =>
        obtain ⟨rfl, hn⟩ | ⟨rfl, hn, s, _, hs, rfl⟩ := startingPoint_eq_some begins.start
        · -- Nothing is unsaved, so the settings are those on record.
          have settled : w.unsaved = false := Bool.eq_false_iff.mpr fun hu => Bool.false_ne_true (hn ▸ (unsaved hu).1)
          rw [settled] at still
          have settings : withSettings before j.sources = before := by simpa [firstWork] using still.symm
          left
          rw [same, Option.none_or, firstWork, settings]
        · right
          refine ⟨rfl, rfl, ?_⟩
          rw [same, firstWork, hs]
          rfl

end Effect

end Job

end WorkflowCatalog
