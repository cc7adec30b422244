import WorkflowCatalog.Proofs.Builds

/-!
# Making the changes to one entry

The changes to an entry are made one after the other, and a run through them may stop early. What it leaves
is the same in each case: the work after the changes of a prefix, saved or not yet worth saving. Everything
that is proved of entries later rests on what `advance` does to the work and on how a run relates to it.
-/
namespace WorkflowCatalog

/-- The same entry and the same names, whatever they say of success. -/
structure SyncResult.SameChanges (r r' : SyncResult) : Prop where
  entry : r.entry = r'.entry
  added : r.added = r'.added
  updated : r.updated = r'.updated
  removed : r.removed = r'.removed
  skippedFrozen : r.skippedFrozen = r'.skippedFrozen

theorem SyncResult.SameChanges.refl (r : SyncResult) : r.SameChanges r := ⟨rfl, rfl, rfl, rfl, rfl⟩

theorem SyncResult.SameChanges.trans {r s t : SyncResult} (h : r.SameChanges s) (k : s.SameChanges t) :
    r.SameChanges t :=
  ⟨h.entry.trans k.entry, h.added.trans k.added, h.updated.trans k.updated, h.removed.trans k.removed,
    h.skippedFrozen.trans k.skippedFrozen⟩

theorem SyncResult.sameChanges_fail (r : SyncResult) (message : String) : (r.fail message).SameChanges r :=
  ⟨rfl, rfl, rfl, rfl, rfl⟩

/-- What no call changes of an entry is the same. -/
structure Entry.SameCore (e e' : Entry) : Prop where
  id : e.id = e'.id
  path : e.path = e'.path
  kind : e.kind = e'.kind
  language : e.language = e'.language
  defaultDescriptorPath : e.defaultDescriptorPath = e'.defaultDescriptorPath

theorem Entry.SameCore.refl (e : Entry) : e.SameCore e := ⟨rfl, rfl, rfl, rfl, rfl⟩

theorem Entry.SameCore.symm {e f : Entry} (h : e.SameCore f) : f.SameCore e :=
  ⟨h.id.symm, h.path.symm, h.kind.symm, h.language.symm, h.defaultDescriptorPath.symm⟩

theorem Entry.SameCore.trans {e f g : Entry} (h : e.SameCore f) (k : f.SameCore g) : e.SameCore g :=
  ⟨h.id.trans k.id, h.path.trans k.path, h.kind.trans k.kind, h.language.trans k.language,
    h.defaultDescriptorPath.trans k.defaultDescriptorPath⟩

theorem Entry.sameCore_withSettings (e : Entry) (d : Declaration) : (e.withSettings d).SameCore e :=
  ⟨rfl, rfl, rfl, rfl, rfl⟩

namespace Sync

open Pass

variable {c : Context} {sources : List VersionSource}

/-- The work with one change made, provided that the save succeeds. -/
def advance (c : Context) (sources : List VersionSource) (w : Work) : Change → Work
  | .build isNew name =>
    match sources.find? fun s => s.remote.name == name with
    | none => w
    | some s =>
      match (Build.version c w.entry s).answer with
      | .ok v => ⟨w.entry.upsert v, false, noted w.result isNew v.name⟩
      | .error e => { w with result := w.result.fail (name ++ ": " ++ e.message) }
  | .remove name => ⟨w.entry.remove name, false, { w.result with removed := w.result.removed ++ [name] }⟩

theorem advance_unlisted {w : Work} {isNew : Bool} {name : String}
    (h : sources.find? (fun s => s.remote.name == name) = none) : advance c sources w (.build isNew name) = w := by
  simp only [advance, h]

theorem advance_built {w : Work} {isNew : Bool} {name : String} {s : VersionSource} {v : Version}
    (h : sources.find? (fun s => s.remote.name == name) = some s) (hv : (Build.version c w.entry s).answer = .ok v) :
    advance c sources w (.build isNew name) = ⟨w.entry.upsert v, false, noted w.result isNew v.name⟩ := by
  simp only [advance, h, hv]

theorem advance_failed {w : Work} {isNew : Bool} {name : String} {s : VersionSource} {e : SyncError}
    (h : sources.find? (fun s => s.remote.name == name) = some s) (he : (Build.version c w.entry s).answer = .error e) :
    advance c sources w (.build isNew name) = { w with result := w.result.fail (name ++ ": " ++ e.message) } := by
  simp only [advance, h, he]

/-- The work with several changes made. -/
def progress (c : Context) (sources : List VersionSource) (w : Work) (done : List Change) : Work :=
  done.foldl (advance c sources) w

@[simp] theorem progress_nil (w : Work) : progress c sources w [] = w := rfl

@[simp] theorem progress_cons (w : Work) (change : Change) (done : List Change) :
    progress c sources w (change :: done) = progress c sources (advance c sources w change) done := rfl

/-- The three things that a change can come to. -/
inductive Advanced (c : Context) (sources : List VersionSource) (w : Work) : Change → Work → Prop
  | skipped {change} {result} (h : result.SameChanges w.result) : Advanced c sources w change { w with result := result }
  | built {isNew} {name} {s : VersionSource} {v : Version}
      (found : sources.find? (fun s => s.remote.name == name) = some s)
      (answer : (Build.version c w.entry s).answer = .ok v) :
      Advanced c sources w (.build isNew name) ⟨w.entry.upsert v, false, noted w.result isNew v.name⟩
  | removed {name} :
      Advanced c sources w (.remove name)
        ⟨w.entry.remove name, false, { w.result with removed := w.result.removed ++ [name] }⟩

theorem advanced (w : Work) (change : Change) : Advanced c sources w change (advance c sources w change) := by
  cases change with
  | remove name => exact .removed
  | build isNew name =>
    cases hs : sources.find? fun s => s.remote.name == name with
    | none =>
      rw [advance_unlisted hs]
      exact .skipped (.refl _)
    | some s =>
      cases hv : (Build.version c w.entry s).answer with
      | ok v =>
        rw [advance_built hs hv]
        exact .built hs hv
      | error e =>
        rw [advance_failed hs hv]
        exact .skipped (SyncResult.sameChanges_fail _ _)

/-- Whatever every change keeps up, a run through changes keeps up. -/
theorem progress_induction {P : Work → Prop} {done : List Change}
    (step : ∀ w change w', change ∈ done → Advanced c sources w change w' → P w → P w') {w : Work} (h : P w) :
    P (progress c sources w done) := by
  induction done generalizing w with
  | nil => exact h
  | cons change done ih =>
    exact ih (fun w ch w' hm => step w ch w' (List.mem_cons_of_mem change hm))
      (step w change _ List.mem_cons_self (advanced w change) h)

theorem core_advanced {w w' : Work} {change : Change} (h : Advanced c sources w change w') :
    w'.entry.SameCore w.entry := by
  cases h <;> exact ⟨rfl, rfl, rfl, rfl, rfl⟩

variable (c sources) in
theorem core_progress (w : Work) (done : List Change) : (progress c sources w done).entry.SameCore w.entry :=
  progress_induction (P := fun x => x.entry.SameCore w.entry) (fun _ _ _ _ h hw => (core_advanced h).trans hw) (.refl _)

theorem sameCore_withSettings (e : Entry) (sources : List VersionSource) : (withSettings e sources).SameCore e := by
  cases sources with
  | nil => exact .refl e
  | cons s _ => exact e.sameCore_withSettings s.declaration

/-- The store after the work has come from `w` to `w'`: as it was, if nothing was changed, or with the entry as
it is now. -/
def Stored (s : Store) (w w' : Work) (s' : Store) : Prop :=
  (s' = s ∧ w'.entry = w.entry ∧ w'.unsaved = w.unsaved ∧ w'.result.SameChanges w.result) ∨
    (s' = s.save w'.entry ∧ w'.unsaved = false)

theorem Stored.refl (s : Store) (w : Work) : Stored s w w s := .inl ⟨rfl, rfl, rfl, SyncResult.SameChanges.refl _⟩

theorem Stored.trans {s t u : Store} {w x y : Work} (h : Stored s w x t) (k : Stored t x y u)
    (id : y.entry.id = x.entry.id) : Stored s w y u := by
  rcases h with ⟨rfl, he, hu, hr⟩ | ⟨rfl, hu⟩
  · rcases k with ⟨rfl, ke, ku, kr⟩ | ⟨rfl, ku⟩
    · exact .inl ⟨rfl, ke.trans he, ku.trans hu, kr.trans hr⟩
    · exact .inr ⟨rfl, ku⟩
  · rcases k with ⟨rfl, ke, ku, kr⟩ | ⟨rfl, ku⟩
    · exact .inr ⟨by rw [ke], ku.trans hu⟩
    · exact .inr ⟨Store.save_save id.symm s, ku⟩

/-- How a part of a call that works on an entry stops: the result at hand is handed in, marked as failed. -/
structure Halted (w : Work) (err : SyncError) (before after : List SyncResult) (r : SyncResult) : Prop where
  result : r = w.result ∨ r = w.result.fail err.message
  failed : r.success = false
  results : after = before ++ [r]

theorem exec_saved (w : Work) (e : Entry) (r : SyncResult) (p : Progress) :
    ∃ q, (exec (saved c w e r) p = (.ok ⟨e, false, r⟩, q) ∧ q.store = p.store.save e ∧ q.results = p.results) ∨
      ∃ err, exec (saved c w e r) p = (.error err, q) ∧ q.store = p.store ∧
        Halted w err p.results q.results (w.result.fail err.message) := by
  unfold saved
  cases hf : c.world.saveFault p.log with
  | none =>
    rw [exec_bind_ok (exec_save hf e)]
    exact ⟨_, .inl ⟨exec_pure _ _, rfl, rfl⟩⟩
  | some err =>
    rw [exec_bind_ok (exec_save_failed hf e)]
    exact ⟨_, .inr ⟨err, exec_stop _ _ _, rfl, .inr rfl, rfl, rfl⟩⟩

/-- A version that could not be built is noted, and stops the call if it must. -/
theorem exec_failed (w : Work) (name : String) (e : SyncError) (p : Progress) :
    (exec (failed c w name e) p = (.ok { w with result := w.result.fail (name ++ ": " ++ e.message) }, p)) ∨
      ∃ q, exec (failed c w name e) p = (.error e, q) ∧ q.store = p.store ∧
        q.results = p.results ++ [w.result.fail (name ++ ": " ++ e.message)] := by
  unfold failed
  cases c.options.isolation with
  | perVersion => exact .inl rfl
  | failFast => exact .inr ⟨_, rfl, rfl, rfl⟩

variable (c sources) in
/-- One change is made in full, or the call stops and the store is as it was. -/
theorem exec_apply (w : Work) (change : Change) (p : Progress) :
    ∃ q, (exec (apply c sources w change) p = (.ok (advance c sources w change), q) ∧ q.results = p.results ∧
        Stored p.store w (advance c sources w change) q.store) ∨
      ∃ err done r, exec (apply c sources w change) p = (.error err, q) ∧ done <+: [change] ∧
        Stored p.store w (progress c sources w done) q.store ∧
        Halted (progress c sources w done) err p.results q.results r := by
  cases change with
  | remove name =>
    obtain ⟨q, ⟨hx, hs, hr⟩ | ⟨err, hx, hs, hh⟩⟩ := exec_saved w (w.entry.remove name)
      { w.result with removed := w.result.removed ++ [name] } p
    · exact ⟨q, .inl ⟨hx, hr, .inr ⟨hs, rfl⟩⟩⟩
    · exact ⟨q, .inr ⟨err, [], _, hx, List.nil_prefix, hs ▸ .refl _ _, hh⟩⟩
  | build isNew name =>
    cases hs : sources.find? fun s => s.remote.name == name with
    | none =>
      rw [advance_unlisted hs]
      exact ⟨p, .inl ⟨by simp only [apply, hs, exec_pure], rfl, .refl _ _⟩⟩
    | some s =>
      have read := exec_attempt (Build.version c w.entry s) p
      rw [(Build.steady_version c w.entry s).answer p.log] at read
      cases hv : (Build.version c w.entry s).answer with
      | ok v =>
        rw [hv] at read
        have run : exec (apply c sources w (.build isNew name)) p =
            exec (saved c w (w.entry.upsert v) (noted w.result isNew v.name))
              { p with log := ((Build.version c w.entry s).run.run p.log).2 } := by
          simp only [apply, hs, exec_bind_ok read]
        rw [advance_built hs hv, run]
        obtain ⟨q, ⟨hx, ht, hr⟩ | ⟨err, hx, ht, hh⟩⟩ := exec_saved w (w.entry.upsert v) (noted w.result isNew v.name)
          { p with log := ((Build.version c w.entry s).run.run p.log).2 }
        · exact ⟨q, .inl ⟨hx, hr, .inr ⟨ht, rfl⟩⟩⟩
        · exact ⟨q, .inr ⟨err, [], _, hx, List.nil_prefix, ht ▸ .refl _ _, hh⟩⟩
      | error e =>
        rw [hv] at read
        have run : exec (apply c sources w (.build isNew name)) p =
            exec (failed c w name e) { p with log := ((Build.version c w.entry s).run.run p.log).2 } := by
          simp only [apply, hs, exec_bind_ok read]
        rw [run, advance_failed hs hv]
        obtain hx | ⟨q, hx, ht, hr⟩ :=
          exec_failed w name e { p with log := ((Build.version c w.entry s).run.run p.log).2 }
        · exact ⟨_, .inl ⟨hx, rfl, .inl ⟨rfl, rfl, rfl, SyncResult.sameChanges_fail _ _⟩⟩⟩
        · refine ⟨q, .inr ⟨e, [.build isNew name], _, hx, List.prefix_refl _, ?_, .inl ?_, rfl, hr⟩⟩
          · rw [progress_cons, progress_nil, advance_failed hs hv]
            exact .inl ⟨ht, rfl, rfl, SyncResult.sameChanges_fail _ _⟩
          · rw [progress_cons, progress_nil, advance_failed hs hv]

variable (c sources) in
/-- A run through changes makes those of a prefix: of all of them, unless the call stops. -/
theorem exec_applyAll (w : Work) (changes : List Change) (p : Progress) :
    ∃ q, (exec (applyAll c sources w changes) p = (.ok (progress c sources w changes), q) ∧ q.results = p.results ∧
        Stored p.store w (progress c sources w changes) q.store) ∨
      ∃ err done r, exec (applyAll c sources w changes) p = (.error err, q) ∧ done <+: changes ∧
        Stored p.store w (progress c sources w done) q.store ∧
        Halted (progress c sources w done) err p.results q.results r := by
  induction changes generalizing w p with
  | nil => exact ⟨p, .inl ⟨rfl, rfl, .refl _ _⟩⟩
  | cons change changes ih =>
    let polled : Progress := { p with log := .poll :: p.log }
    cases hc : c.world.cancelled polled.log with
    | true =>
      have run : exec (applyAll c sources w (change :: changes)) p =
          exec (stop w.result .cancelled : Pass Work) polled := by
        rw [applyAll, exec_bind_ok (exec_poll c p), hc]
        rfl
      rw [run]
      exact ⟨_, .inr ⟨.cancelled, [], _, rfl, List.nil_prefix, .refl _ _, .inr rfl, rfl, rfl⟩⟩
    | false =>
      have run : exec (applyAll c sources w (change :: changes)) p =
          exec (apply c sources w change >>= fun x => applyAll c sources x changes) polled := by
        rw [applyAll, exec_bind_ok (exec_poll c p), hc]
        rfl
      rw [run]
      obtain ⟨q, ⟨hx, hr, hs⟩ | ⟨err, done, r, hx, hd, hs, hh⟩⟩ := exec_apply c sources w change polled
      · rw [exec_bind_ok hx]
        have id := fun done => (core_progress c sources (advance c sources w change) done).id
        obtain ⟨t, ⟨kx, kr, ks⟩ | ⟨err, done, r, kx, kd, ks, kh⟩⟩ := ih (advance c sources w change) q
        · exact ⟨t, .inl ⟨kx, kr.trans hr, hs.trans ks (id changes)⟩⟩
        · refine ⟨t, .inr ⟨err, change :: done, r, kx, (List.prefix_cons_inj change).mpr kd, hs.trans ks (id done), ?_⟩⟩
          exact ⟨kh.result, kh.failed, kh.results.trans (by rw [hr])⟩
      · rw [exec_bind_error hx]
        exact ⟨q, .inr ⟨err, done, r, rfl, hd.trans (by simp), hs, hh⟩⟩

end Sync

end WorkflowCatalog
