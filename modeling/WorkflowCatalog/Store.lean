import WorkflowCatalog.Entry
import WorkflowCatalog.SyncError

/-!
# The catalog

Entries in the order in which they were first saved, and the accounts that may start a reconciliation.
-/
namespace WorkflowCatalog

structure User where
  username : String
  createdAt : Timestamp
deriving DecidableEq, Repr

structure Store where
  entries : List Entry
  users : List User
deriving DecidableEq, Repr

namespace Store

def empty : Store := ⟨[], []⟩

def hasUser (s : Store) (username : String) : Bool := s.users.any fun u => u.username == username

def user? (s : Store) (username : String) : Option User := s.users.find? fun u => u.username == username

/-- Registers an account, unless there is one of that name. -/
def addUser (s : Store) (now : Timestamp) (username : String) : Store :=
  if s.hasUser username then s else { s with users := s.users ++ [⟨username, now⟩] }

def entry? (s : Store) (p : EntryPath) : Option Entry := s.entries.find? fun e => e.path == p

/-- Replaces the entry of the same identifier, or adds one at the end. -/
def save (s : Store) (e : Entry) : Store := { s with entries := Keyed.upsert Entry.id e s.entries }

/-- Saves the entry, if there is one. -/
def saving (s : Store) : Option Entry → Store
  | none => s
  | some e => s.save e

def replaceByPath (e : Entry) : List Entry → List Entry
  | [] => []
  | f :: fs => if f.path = e.path then e :: fs else f :: replaceByPath e fs

/-- Puts an entry in the place of the first one of the same path. -/
def replace (s : Store) (e : Entry) : Store := { s with entries := replaceByPath e s.entries }

def versions (s : Store) (entryId : String) : Except SyncError (List Version) :=
  match s.entries.find? fun e => e.id == entryId with
  | some e => .ok e.versions
  | none => .error (.catalog ("entry not found: " ++ entryId))

/-- All entries of the repository of that address. -/
def forRepository (s : Store) (p : EntryPath) : List Entry := s.entries.filter fun e => e.path.sameRepository p

@[simp] theorem users_save (s : Store) (e : Entry) : (s.save e).users = s.users := rfl

/-- Of two saves of one entry the later one counts. -/
theorem save_save {e f : Entry} (h : e.id = f.id) (s : Store) : (s.save e).save f = s.save f := by
  simp only [save, Keyed.upsert_upsert h]

/-! ## Several saves -/

theorem mem_entries_saves {s : Store} {es : List Entry} {f : Entry} (h : f ∈ (es.foldl save s).entries) :
    f ∈ s.entries ∨ f ∈ es := by
  induction es generalizing s with
  | nil => exact .inl h
  | cons e es ih =>
    rcases ih h with hf | hf
    · rcases Keyed.mem_of_mem_upsert hf with rfl | hf
      · exact .inr List.mem_cons_self
      · exact .inl hf
    · exact .inr (List.mem_cons_of_mem e hf)

/-- An entry stays while others are saved. -/
theorem mem_entries_saves_of_mem {s : Store} {es : List Entry} {f : Entry} (h : f ∈ s.entries)
    (others : ∀ e ∈ es, f.id ≠ e.id) : f ∈ (es.foldl save s).entries := by
  induction es generalizing s with
  | nil => exact h
  | cons e es ih =>
    rw [List.forall_mem_cons] at others
    exact ih (Keyed.mem_upsert_of_mem h others.1) others.2

/-- What entries there are after several saves is settled by the entries before them. -/
theorem entries_saves_congr {s t : Store} (h : s.entries = t.entries) (es : List Entry) :
    (es.foldl save s).entries = (es.foldl save t).entries := by
  induction es generalizing s t with
  | nil => exact h
  | cons e es ih => exact ih (congrArg (Keyed.upsert Entry.id e) h)

/-! ## Replacing and registering -/

theorem replaceByPath_eq_upsert {e : Entry} {es : List Entry} (h : ∃ f ∈ es, f.path = e.path) :
    replaceByPath e es = Keyed.upsert Entry.path e es := by
  induction es with
  | nil => simp at h
  | cons f fs ih =>
    simp only [replaceByPath, Keyed.upsert]
    by_cases hf : f.path = e.path
    · simp [hf]
    · rw [if_neg hf, if_neg hf, ih (by simpa [hf] using h)]

@[simp] theorem entries_addUser (s : Store) (now : Timestamp) (username : String) :
    (s.addUser now username).entries = s.entries := by
  unfold addUser
  split <;> rfl

end Store

end WorkflowCatalog
