import WorkflowCatalog.CommandLine
import WorkflowCatalog.Proofs.Durability

/-!
# Files that are kept in a state

Commands are given their files from outside. Here the files are a state, so that what a command reads and what it
leaves can be told. Each job either only reads, and then something is known of what it yields, or it changes the files
in a way that is kept from one job to the next.
-/
namespace WorkflowCatalog.CommandLine

/-- What is found at each path, and how a save to a directory would fail after so many writes. -/
structure Disk where
  found : String → Found
  faults : Nat → String → Option SaveFault
  writes : Nat := 0

namespace Disk

def write (d : Disk) (path : String) (f : Found) : Disk :=
  { d with found := fun other => if other = path then f else d.found other, writes := d.writes + 1 }

/-- How a save to the directory would fail by now. -/
def fault (d : Disk) (directory : String) : Option SaveFault := d.faults d.writes directory

/-- A save to the directory never fails. -/
def Takes (d : Disk) (directory : String) : Prop := ∀ n, d.faults n directory = none

def extend (text : String) : Found → Found
  | .nothing => .text text
  | .text t => .text (t ++ text)
  | .unreadable => .unreadable

/-- Files that are kept in a state. -/
def files : Files (StateM Disk) where
  read path := return (← get).found path
  saveFault directory := return (← get).fault directory
  replace path text := modify fun d => d.write path (.text text)
  append path text := modify fun d => d.write path (extend text (d.found path))

/-- The catalog of a directory, if it can be opened. -/
def catalog? (d : Disk) (directory : String) : Option Store :=
  match d.found (DiskCatalog.filePath directory) with
  | .nothing => some .empty
  | .unreadable => none
  | .text t => Store.read? t

end Disk

namespace Job

variable {α β : Type}

/-- How a job ends, what it has shown by then, and the files that it leaves. -/
def exec (x : Job (StateM Disk) α) (lines : List String) (d : Disk) : (Except String α × List String) × Disk :=
  (x.run.run lines).run d

theorem exec_bind (x : Job (StateM Disk) α) (f : α → Job (StateM Disk) β) (lines : List String) (d : Disk) :
    exec (x >>= f) lines d =
      match exec x lines d with
      | ((.ok a, shown), e) => exec (f a) shown e
      | ((.error message, shown), e) => ((.error message, shown), e) := by
  change (ExceptT.bindCont f (exec x lines d).1.1 : StateT (List String) (StateM Disk) _).run (exec x lines d).1.2
    (exec x lines d).2 = _
  rcases exec x lines d with ⟨⟨_ | _, _⟩, _⟩ <;> rfl

/-- The job changes no file, and what it yields is known. -/
def Reads (x : Job (StateM Disk) α) (P : Disk → α → Prop) : Prop :=
  ∀ lines d, (exec x lines d).2 = d ∧ ∀ a, (exec x lines d).1.1 = .ok a → P d a

/-- How the files are changed. -/
def Changes (x : Job (StateM Disk) α) (R : Disk → Disk → Prop) : Prop := ∀ lines d, R d (exec x lines d).2

section Reading

variable {P : Disk → α → Prop}

theorem reads_pure (a : α) : Reads (pure a) fun _ b => b = a := fun _ _ => ⟨rfl, fun _ h => (Except.ok.inj h).symm⟩

theorem reads_throw (message : String) : Reads (throw message : Job (StateM Disk) α) P := fun _ _ => ⟨rfl, nofun⟩

theorem reads_found (path : String) : Reads (await (Disk.files.read path)) fun d f => d.found path = f :=
  fun _ _ => ⟨rfl, fun _ => Except.ok.inj⟩

theorem reads_fault (directory : String) :
    Reads (await (Disk.files.saveFault directory)) fun d f => d.fault directory = f :=
  fun _ _ => ⟨rfl, fun _ => Except.ok.inj⟩

theorem reads_print (lines : List String) : Reads (print lines) fun _ _ => True := fun _ _ => ⟨rfl, fun _ _ => trivial⟩

theorem Reads.imp {x : Job (StateM Disk) α} {Q : Disk → α → Prop} (h : Reads x P) (weaker : ∀ d a, P d a → Q d a) :
    Reads x Q := fun lines d => ⟨(h lines d).1, fun a ha => weaker d a ((h lines d).2 a ha)⟩

theorem Reads.bind {x : Job (StateM Disk) α} {f : α → Job (StateM Disk) β} {Q : Disk → β → Prop} (hx : Reads x P)
    (hf : ∀ a, Reads (f a) fun d b => P d a → Q d b) : Reads (x >>= f) Q := by
  intro lines d
  have read := hx lines d
  rw [exec_bind]
  rcases ran : exec x lines d with ⟨⟨_ | a, shown⟩, e⟩
  · rw [ran] at read
    exact ⟨read.1, nofun⟩
  · rw [ran] at read
    obtain rfl : e = d := read.1
    obtain ⟨same, known⟩ := hf a shown e
    exact ⟨same, fun b hb => known b hb (read.2 a rfl)⟩

/-- What was read first may be of no matter. -/
theorem Reads.andThen {x : Job (StateM Disk) α} {f : α → Job (StateM Disk) β} {Q : Disk → β → Prop} (hx : Reads x P)
    (hf : ∀ a, Reads (f a) Q) : Reads (x >>= f) Q := hx.bind fun a => (hf a).imp fun _ _ h _ => h

theorem reads_pure_any (a : α) : Reads (pure a) fun _ _ => True := (reads_pure a).imp fun _ _ _ => trivial

end Reading

section Changing

variable {x : Job (StateM Disk) α} {R : Disk → Disk → Prop}

theorem Reads.changes {P : Disk → α → Prop} (h : Reads x P) (refl : ∀ d, R d d) : Changes x R := by
  intro lines d
  rw [(h lines d).1]
  exact refl d

/-- What is read before a change is known of the files that are changed. -/
theorem Reads.then {P : Disk → α → Prop} (hx : Reads x P) (refl : ∀ d, R d d) {f : α → Job (StateM Disk) β}
    (hf : ∀ a, Changes (f a) fun d e => P d a → R d e) : Changes (x >>= f) R := by
  intro lines d
  have read := hx lines d
  rw [exec_bind]
  rcases ran : exec x lines d with ⟨⟨_ | a, shown⟩, e⟩
  · rw [ran] at read
    obtain rfl : e = d := read.1
    exact refl e
  · rw [ran] at read
    obtain rfl : e = d := read.1
    exact hf a shown e (read.2 a rfl)

theorem Changes.bind (hx : Changes x R) (trans : ∀ d e f, R d e → R e f → R d f) {f : α → Job (StateM Disk) β}
    (hf : ∀ a, Changes (f a) R) : Changes (x >>= f) R := by
  intro lines d
  have first := hx lines d
  rw [exec_bind]
  rcases ran : exec x lines d with ⟨⟨_ | a, shown⟩, e⟩
  · rw [ran] at first
    exact first
  · rw [ran] at first
    exact trans _ _ _ first (hf a shown e)

theorem Changes.imp {Q : Disk → Disk → Prop} (hx : Changes x R) (weaker : ∀ d e, R d e → Q d e) : Changes x Q :=
  fun lines d => weaker d _ (hx lines d)

end Changing

section Performing

variable {x : Job (StateM Disk) α} {f : α → Job (StateM Disk) β} {d e : Disk} {a : α}

/-- The job comes to a value and shows nothing, and these are the files after it. -/
def Performs (x : Job (StateM Disk) α) (d : Disk) (a : α) (e : Disk) : Prop :=
  ∀ lines, exec x lines d = ((.ok a, lines), e)

/-- The job fails and shows nothing, and leaves the files as they are. -/
def Fails (x : Job (StateM Disk) α) (d : Disk) : Prop := ∃ message, ∀ lines, exec x lines d = ((.error message, lines), d)

/-- What holds of the files after a job, however it ends. -/
def Leaves (x : Job (StateM Disk) α) (d : Disk) (P : Disk → Prop) : Prop := ∀ lines, P (exec x lines d).2

theorem performs_pure (a : α) : Performs (pure a) d a d := fun _ => rfl

theorem performs_found (path : String) : Performs (await (Disk.files.read path)) d (d.found path) d := fun _ => rfl

theorem performs_fault (directory : String) :
    Performs (await (Disk.files.saveFault directory)) d (d.fault directory) d := fun _ => rfl

theorem Performs.bind (h : Performs x d a e) {b : β} {e' : Disk} (k : Performs (f a) e b e') :
    Performs (x >>= f) d b e' := by
  intro lines
  rw [exec_bind, h]
  exact k lines

theorem fails_throw (message : String) : Fails (throw message : Job (StateM Disk) α) d := ⟨message, fun _ => rfl⟩

theorem Performs.fails (h : Performs x d a d) (k : Fails (f a) d) : Fails (x >>= f) d := by
  obtain ⟨message, failed⟩ := k
  refine ⟨message, fun lines => ?_⟩
  rw [exec_bind, h]
  exact failed lines

theorem Fails.bind (h : Fails x d) : Fails (x >>= f) d := by
  obtain ⟨message, failed⟩ := h
  refine ⟨message, fun lines => ?_⟩
  rw [exec_bind, failed]

theorem reads_of_performs_or_fails {P : Disk → α → Prop} (h : ∀ d, (∃ a, Performs x d a d ∧ P d a) ∨ Fails x d) :
    Reads x P := by
  intro lines d
  rcases h d with ⟨a, performed, known⟩ | ⟨message, failed⟩
  · rw [performed]
    exact ⟨rfl, fun b same => Except.ok.inj same ▸ known⟩
  · rw [failed]
    exact ⟨rfl, nofun⟩

theorem Performs.leaves {P : Disk → Prop} (h : Performs x d a e) (k : Leaves (f a) e P) : Leaves (x >>= f) d P := by
  intro lines
  rw [exec_bind, h]
  exact k lines

theorem Changes.leaves {R : Disk → Disk → Prop} {P : Disk → Prop} (h : Changes x R) (known : ∀ e, R d e → P e) :
    Leaves x d P := fun lines => known _ (h lines d)

end Performing

end Job

/-! ## Catalogs among the files -/

/-- The path of a catalog tells its directory. -/
theorem filePath_inj {a b : String} (same : DiskCatalog.filePath a = DiskCatalog.filePath b) : a = b := by
  have texts := congrArg String.toList same
  simp only [DiskCatalog.filePath, String.toList_append] at texts
  exact String.toList_inj.mp (List.append_cancel_right (List.append_cancel_right texts))

theorem filePath_ne_events (a b : String) : DiskCatalog.filePath a ≠ EventLog.filePath b := by
  intro same
  have texts := congrArg (fun s => s.toList.reverse.head?) same
  simp [DiskCatalog.filePath, DiskCatalog.fileName, EventLog.filePath, EventLog.fileName] at texts

namespace Disk

variable {directory : String} {s t : Store} {d e f : Disk}

/-- All catalogs are as before. -/
def SameCatalogs (d e : Disk) : Prop := ∀ directory, e.catalog? directory = d.catalog? directory

theorem SameCatalogs.refl (d : Disk) : SameCatalogs d d := fun _ => rfl

theorem SameCatalogs.trans (d e f : Disk) (h : SameCatalogs d e) (k : SameCatalogs e f) : SameCatalogs d f :=
  fun directory => (k directory).trans (h directory)

theorem catalog?_write_of_ne {path : String} (other : DiskCatalog.filePath directory ≠ path) (d : Disk)
    (found : Found) : (d.write path found).catalog? directory = d.catalog? directory := by
  unfold Disk.catalog? write
  dsimp only
  rw [if_neg other]

theorem sameCatalogs_append (d : Disk) (beside : String) (found : Found) :
    SameCatalogs d (d.write (EventLog.filePath beside) found) := fun directory =>
  catalog?_write_of_ne (filePath_ne_events directory beside) d found

/-- The catalog of the directory has become this one, and all others are as before. -/
structure Becomes (directory : String) (s : Store) (d e : Disk) : Prop where
  here : e.catalog? directory = some s
  elsewhere : ∀ other, other ≠ directory → e.catalog? other = d.catalog? other

theorem Becomes.refl (opened : d.catalog? directory = some s) : Becomes directory s d d := ⟨opened, fun _ _ => rfl⟩

theorem Becomes.trans (h : Becomes directory s d e) (k : Becomes directory t e f) : Becomes directory t d f :=
  ⟨k.here, fun other ne => (k.elsewhere other ne).trans (h.elsewhere other ne)⟩

theorem Becomes.append (h : Becomes directory s d e) (k : SameCatalogs e f) : Becomes directory s d f :=
  ⟨(k directory).trans h.here, fun other ne => (k other).trans (h.elsewhere other ne)⟩

theorem becomes_write (d : Disk) (directory : String) (s : Store) :
    Becomes directory s d (d.write (DiskCatalog.filePath directory) (.text s.write)) where
  here := by
    unfold Disk.catalog? write
    dsimp only
    rw [if_pos rfl]
    exact Store.read?_write s
  elsewhere other ne := catalog?_write_of_ne (mt filePath_inj ne) d _

end Disk

end WorkflowCatalog.CommandLine
