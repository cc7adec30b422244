import Mathlib.Data.List.Induction
import WorkflowCatalog.Proofs.Catalog
import WorkflowCatalog.Proofs.Documents
import WorkflowCatalog.Store.Disk

/-!
# What is left of a catalog when it is opened again

Of the store in memory, the accounts may be ahead of the file, and nothing else: an entry is put into the store only
together with the file. So whatever fails in between, opening the catalog again gives the store of the last save.
-/
namespace WorkflowCatalog.DiskCatalog

/-- What is done with a catalog, and at which step a save of it fails. -/
inductive Operation
  | saveEntry (e : Entry) (fault : Option SaveFault)
  | addUser (now : Timestamp) (username : String)
  | save (fault : Option SaveFault)
  | reopen
deriving DecidableEq, Repr

namespace Operation

/-- The catalog after the operation. Only opening it may leave none. -/
def perform (c : DiskCatalog) : Operation → Except String DiskCatalog
  | saveEntry e fault => .ok (c.saveEntry e fault).1
  | addUser now username => .ok (c.addUser now username)
  | save fault => .ok (c.attempt fault).1
  | reopen => c.reopen

/-- Whether the store is saved to the file. -/
def isSave : Operation → Bool
  | saveEntry _ none | save none => true
  | _ => false

/-- The entry that is saved. -/
def saved? : Operation → Option Entry
  | saveEntry e none => some e
  | _ => none

end Operation

/-- The catalog after several operations. -/
def perform (c : DiskCatalog) (os : List Operation) : Except String DiskCatalog := os.foldlM Operation.perform c

theorem perform_append_singleton {c d : DiskCatalog} {os : List Operation} (h : c.perform os = .ok d) (o : Operation) :
    c.perform (os ++ [o]) = o.perform d := by
  rw [perform, List.foldlM_append]
  rw [perform] at h
  rw [h]
  exact bind_pure (o.perform d)

/-- The store that the file has. -/
def onDisk? (c : DiskCatalog) : Option Store :=
  match c.file with
  | none => some .empty
  | some text => Store.read? text

theorem onDisk?_of_load {directory : String} {file : Option String} {c : DiskCatalog}
    (h : load directory file = .ok c) : c.onDisk? = some c.store := by
  unfold load at h
  split at h
  · obtain rfl := Except.ok.inj h
    rfl
  · split at h
    · rename_i read
      obtain rfl := Except.ok.inj h
      exact read
    · exact nomatch h

/-- The catalog that is opened again is the same but for the store, which is the one of the file. -/
theorem reopen_eq {c : DiskCatalog} {s : Store} (h : c.onDisk? = some s) : c.reopen = .ok { c with store := s } := by
  obtain ⟨directory, store, file, staged⟩ := c
  cases file with
  | none =>
    obtain rfl := Option.some.inj h
    rfl
  | some text =>
    have read : Store.read? text = some s := h
    simp [reopen, load, read, Except.map]

/-! ## Saves -/

variable (c : DiskCatalog)

/-- A failure leaves no trace but of what was staged. -/
theorem attempt_fault (f : SaveFault) :
    ∃ left, c.attempt (some f) = ({ c with staged := left }, some (faultMessage c.directory f)) := by
  cases f with
  | directory => exact ⟨c.staged, rfl⟩
  | write left => exact ⟨left, rfl⟩
  | replace => exact ⟨some c.store.write, rfl⟩

theorem saveEntry_fault (e : Entry) (f : SaveFault) :
    ∃ left, c.saveEntry e (some f) = ({ c with staged := left }, some (.catalog (faultMessage c.directory f))) := by
  obtain ⟨left, attempted⟩ := attempt_fault { c with store := c.store.save e } f
  exact ⟨left, by rw [saveEntry, attempted]⟩

theorem saveEntry_none (e : Entry) : c.saveEntry e none =
    ({ c with store := c.store.save e, file := some (c.store.save e).write, staged := none }, none) := rfl

theorem onDisk?_of_write {d : DiskCatalog} (h : d.file = some d.store.write) : d.onDisk? = some d.store := by
  rw [onDisk?, h]
  exact d.store.read?_write

/-! ## Runs -/

/-- The file has a store, of which only the accounts may differ from those in memory. -/
structure Keeps (c : DiskCatalog) (s : Store) : Prop where
  onDisk : c.onDisk? = some s
  entries : c.store.entries = s.entries

variable {c}

theorem Keeps.of_onDisk (h : c.onDisk? = some c.store) : c.Keeps c.store := ⟨h, rfl⟩

theorem Keeps.staged {s : Store} (h : c.Keeps s) (left : Option String) : Keeps { c with staged := left } s := ⟨h.1, h.2⟩

/-- An operation leaves a catalog. What the file has changes with a save, and the entries with a saved entry. -/
theorem Keeps.step {s : Store} (h : c.Keeps s) (o : Operation) :
    ∃ d, o.perform c = .ok d ∧ d.Keeps (if o.isSave then d.store else s) ∧
      d.store.entries = (o.saved?.toList.foldl Store.save c.store).entries := by
  cases o with
  | saveEntry e fault =>
    cases fault with
    | none => exact ⟨_, rfl, .of_onDisk (onDisk?_of_write rfl), rfl⟩
    | some f =>
      obtain ⟨left, failed⟩ := c.saveEntry_fault e f
      exact ⟨{ c with staged := left }, by rw [Operation.perform, failed], h.staged left, rfl⟩
  | addUser now username =>
    have same : (c.addUser now username).store.entries = c.store.entries := Store.entries_addUser _ _ _
    exact ⟨_, rfl, ⟨h.onDisk, same.trans h.entries⟩, same⟩
  | save fault =>
    cases fault with
    | none => exact ⟨_, rfl, .of_onDisk (onDisk?_of_write rfl), rfl⟩
    | some f =>
      obtain ⟨left, failed⟩ := c.attempt_fault f
      exact ⟨{ c with staged := left }, by rw [Operation.perform, failed], h.staged left, rfl⟩
  | reopen => exact ⟨_, reopen_eq h.onDisk, ⟨h.onDisk, rfl⟩, h.entries.symm⟩

/-- The store right after the last save among the operations, or at the start if there is none. -/
inductive LastSaved (c : DiskCatalog) : List Operation → Store → Prop
  | start {os : List Operation} (unsaved : ∀ o ∈ os, o.isSave = false) : LastSaved c os c.store
  | saved {earlier later : List Operation} {o : Operation} {d : DiskCatalog} (save : o.isSave = true)
      (unsaved : ∀ o ∈ later, o.isSave = false) (perform : c.perform (earlier ++ [o]) = .ok d) :
      LastSaved c (earlier ++ o :: later) d.store

theorem LastSaved.append {os : List Operation} {s : Store} (h : c.LastSaved os s) {o : Operation}
    (unsaved : o.isSave = false) : c.LastSaved (os ++ [o]) s := by
  have also {os : List Operation} (none : ∀ x ∈ os, x.isSave = false) : ∀ x ∈ os ++ [o], x.isSave = false :=
    List.forall_mem_append.mpr ⟨none, List.forall_mem_singleton.mpr unsaved⟩
  cases h with
  | start none => exact .start (also none)
  | @saved earlier later last d save none perform =>
    rw [List.append_assoc, List.cons_append]
    exact .saved save (also none) perform

/-- No sequence of operations fails, and the file always has the store of the last save. -/
theorem run_keeps (h : c.onDisk? = some c.store) (os : List Operation) :
    ∃ d s, c.perform os = .ok d ∧ d.Keeps s ∧ c.LastSaved os s ∧
      d.store.entries = ((os.filterMap Operation.saved?).foldl Store.save c.store).entries := by
  induction os using List.reverseRecOn with
  | nil => exact ⟨c, c.store, rfl, .of_onDisk h, .start (List.forall_mem_nil _), rfl⟩
  | append_singleton os o ih =>
    obtain ⟨d, s, performed, keeps, last, entries⟩ := ih
    obtain ⟨d', step, keeps', saved⟩ := keeps.step o
    have performed' : c.perform (os ++ [o]) = .ok d' := (perform_append_singleton performed o).trans step
    refine ⟨d', _, performed', keeps', ?_, ?_⟩
    · split
      · rename_i save
        exact .saved save (List.forall_mem_nil _) performed'
      · rename_i unsaved
        exact last.append (Bool.not_eq_true _ ▸ unsaved)
    · rw [saved, Store.entries_saves_congr entries, List.filterMap_append, List.foldl_append]
      cases found : o.saved? <;> simp [found]

/-- What holds of a catalog after several operations. -/
structure Durable (c : DiskCatalog) (os : List Operation) (d : DiskCatalog) : Prop where
  /-- An entry whose save fails changes neither the store nor the file. -/
  refused : ∀ e f, ∃ left message, d.saveEntry e (some f) = ({ d with staged := left }, some (.catalog message))
  /-- Neither does any other save that fails. -/
  unwritten : ∀ f, ∃ left message, d.save (some f) = .error message ∧
    d.attempt (some f) = ({ d with staged := left }, some message)
  /-- After an entry is saved, the file has the store with it. -/
  saved : ∀ e, ∃ after, d.saveEntry e none = (after, none) ∧ after.store = d.store.save e ∧
    after.file.bind Store.read? = some after.store
  /-- After a save, the file has the store. -/
  written : ∃ after, d.save none = .ok after ∧ after.store = d.store ∧ after.file.bind Store.read? = some after.store
  /-- A catalog that is opened again has the store of the last save, with the entries that were saved. -/
  reopened : ∃ after, d.reopen = .ok after ∧ c.LastSaved os after.store ∧
    after.store.entries = ((os.filterMap Operation.saved?).foldl Store.save c.store).entries ∧
    (∀ earlier e later, os = earlier ++ .saveEntry e none :: later →
      (∀ f ∈ later.filterMap Operation.saved?, e.id ≠ f.id) → e ∈ after.store.entries) ∧
    ∀ e ∈ after.store.entries, e ∈ c.store.entries ∨ .saveEntry e none ∈ os

/-- However saves fail in between, a catalog that was opened can go on and can be opened again. What fails leaves no
trace in memory or in the file, and what is saved is found again. -/
theorem durable_perform {directory : String} {file : Option String} {c : DiskCatalog}
    (opened : load directory file = .ok c) (left : Option String) (os : List Operation) :
    ∃ d, perform { c with staged := left } os = .ok d ∧ Durable { c with staged := left } os d := by
  have read : c.onDisk? = some c.store := onDisk?_of_load opened
  have start : onDisk? { c with staged := left } = some c.store := read
  obtain ⟨d, s, performed, keeps, last, entries⟩ := run_keeps start os
  have kept : s.entries = ((os.filterMap Operation.saved?).foldl Store.save c.store).entries :=
    keeps.entries.symm.trans entries
  have saved_mem {e : Entry} (he : e ∈ os.filterMap Operation.saved?) : .saveEntry e none ∈ os := by
    obtain ⟨o, ho, found⟩ := List.mem_filterMap.mp he
    cases o with
    | saveEntry f fault =>
      cases fault with
      | none => exact Option.some.inj found ▸ ho
      | some f => exact nomatch found
    | _ => exact nomatch found
  refine ⟨d, performed, ?_, ?_, ?_, ?_, _, reopen_eq keeps.onDisk, last, kept, ?_, ?_⟩
  · intro e f
    obtain ⟨staged, failed⟩ := d.saveEntry_fault e f
    exact ⟨staged, _, failed⟩
  · intro f
    obtain ⟨staged, failed⟩ := d.attempt_fault f
    exact ⟨staged, _, by rw [save, failed], failed⟩
  · exact fun e => ⟨_, d.saveEntry_none e, rfl, Store.read?_write _⟩
  · exact ⟨_, rfl, rfl, Store.read?_write _⟩
  · rintro earlier e later rfl others
    have split : (earlier ++ .saveEntry e none :: later).filterMap Operation.saved? =
        earlier.filterMap Operation.saved? ++ e :: later.filterMap Operation.saved? := List.filterMap_append
    rw [kept, split, List.foldl_append, List.foldl_cons]
    exact Store.mem_entries_saves_of_mem (Keyed.mem_upsert_self Entry.id e _) others
  · intro e he
    rw [kept] at he
    exact (Store.mem_entries_saves he).imp_right saved_mem

/-- A new catalog gets an account and an entry. Then another entry fails to be moved into place, and another account is
not saved. -/
theorem sample_durable :
    let c : DiskCatalog := { directory := "data", store := .empty, file := none }
    let first := Entry.new Sample.path .workflow .wdl "/m"
    let second := Entry.new { Sample.path with name := some "n" } .workflow .wdl "/m"
    let os : List Operation := [.addUser Sample.now "alice", .saveEntry first none, .addUser Sample.now "bob",
      .saveEntry second (some .replace)]
    load "data" none = .ok c ∧ ∃ d, c.perform os = .ok d ∧ Durable c os d := by
  intro c first second os
  have opened : load "data" none = .ok c := rfl
  exact ⟨opened, durable_perform opened none os⟩

end WorkflowCatalog.DiskCatalog
