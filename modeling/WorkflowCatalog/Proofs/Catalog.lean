import Mathlib.Logic.Relation
import WorkflowCatalog.Proofs.Plans

/-!
# Catalogs that can come about

A catalog starts empty, and changes as accounts are registered, versions are frozen, and calls are run. What
every operation on an entry keeps up then holds of every entry. In particular each entry has the identifier
of its address and no version name twice, so a catalog can be searched by address.
-/
namespace WorkflowCatalog

namespace Store

/-- One step of a catalog: a registration, a freeze, or a call in whatever world. -/
inductive Step : Store → Store → Prop
  | register {s : Store} (now : Timestamp) (username : String) : Step s (s.addUser now username)
  | freeze {s : Store} {p : EntryPath} {name : String} {e : Entry} {v : Version} (entry : s.entry? p = some e)
      (version : e.version? name = some v) : Step s (s.replace (e.freeze v))
  | call {s : Store} (c : Context) (call : Call) : Step s (Reconcile.run c s call).store

/-- Any number of steps. -/
abbrev Steps : Store → Store → Prop := Relation.ReflTransGen Step

/-- Catalogs that come about from the empty one. -/
def Reachable (s : Store) : Prop := Steps empty s

end Store

/-- What holds of an entry whatever is done to it. -/
structure Entry.Invariant (P : Entry → Prop) : Prop where
  new : ∀ {p : EntryPath} (d : Declaration), p.IsPlain → P (.ofDeclaration p d)
  settings : ∀ {e : Entry} (d : Declaration), P e → P (e.withSettings d)
  built : ∀ {c : Context} {e : Entry} {s : VersionSource} {v : Version},
    P e → (Build.version c e s).answer = .ok v → P (e.upsert v)
  removed : ∀ {e : Entry} (name : String), P e → P (e.remove name)
  frozen : ∀ {e : Entry} {name : String} {v : Version}, P e → e.version? name = some v → P (e.freeze v)

namespace Store

/-- All entries have a property. -/
def All (P : Entry → Prop) (s : Store) : Prop := ∀ e ∈ s.entries, P e

variable {P : Entry → Prop} {s : Store}

theorem All.entry? (h : s.All P) {p : EntryPath} {e : Entry} (found : s.entry? p = some e) : P e :=
  h e (List.mem_of_find?_eq_some found)

theorem All.save (h : s.All P) {e : Entry} (he : P e) : (s.save e).All P := by
  intro f hf
  rcases Keyed.mem_of_mem_upsert hf with rfl | hf
  · exact he
  · exact h f hf

/-- Entries of some kind are saved one after the other. -/
inductive Saves (P : Entry → Prop) (s : Store) : Store → Prop
  | refl : Saves P s s
  | save {t : Store} {e : Entry} (before : Saves P s t) (he : P e) : Saves P s (t.save e)

theorem saves_saving {last : Option Entry} (h : ∀ e, last = some e → P e) (s : Store) : Saves P s (s.saving last) := by
  cases last with
  | none => exact .refl
  | some e => exact .save .refl (h e rfl)

theorem Saves.trans {t u : Store} (h : Saves P s t) (k : Saves P t u) : Saves P s u := by
  induction k with
  | refl => exact h
  | save _ he ih => exact ih.save he

theorem All.saves (h : s.All P) {t : Store} (k : Saves P s t) : t.All P := by
  induction k with
  | refl => exact h
  | save _ he ih => exact ih.save he

theorem Saves.users {t : Store} (h : Saves P s t) : t.users = s.users := by
  induction h with
  | refl => rfl
  | save _ _ ih => exact ih

theorem All.addUser (h : s.All P) (now : Timestamp) (username : String) : (s.addUser now username).All P := by
  intro e he
  rw [entries_addUser] at he
  exact h e he

theorem All.replace (h : s.All P) {e : Entry} (he : P e) : (s.replace e).All P := by
  have replaced : ∀ es : List Entry, (∀ f ∈ es, P f) → ∀ f ∈ replaceByPath e es, P f := by
    intro es
    induction es with
    | nil => exact fun _ f hf => absurd hf List.not_mem_nil
    | cons f fs ih =>
      intro hes
      rw [List.forall_mem_cons] at hes
      simp only [replaceByPath]
      split
      · exact List.forall_mem_cons.mpr ⟨he, hes.2⟩
      · exact List.forall_mem_cons.mpr ⟨hes.1, ih hes.2⟩
  exact replaced s.entries h

end Store

namespace Entry.Invariant

variable {P : Entry → Prop} (I : Invariant P) {c : Context}
include I

theorem start {j : Job} {old : Option Entry} (h : ∀ e, old = some e → P e) (plain : j.path.IsPlain) {before : Entry}
    {isNew : Bool} (start : Sync.startingPoint j.path old j.sources = some (before, isNew)) :
    P (Sync.withSettings before j.sources) := by
  have hb : P before := by
    obtain ⟨found, -⟩ | ⟨-, -, s, _, -, rfl⟩ := Job.startingPoint_eq_some start
    · exact h before found
    · exact I.new s.declaration plain
  cases j.sources with
  | nil => exact hb
  | cons s _ => exact I.settings s.declaration hb

theorem progress {sources : List VersionSource} {w : Sync.Work} (h : P w.entry) (done : List Change) :
    P (Sync.progress c sources w done).entry := by
  refine Sync.progress_induction (P := fun w => P w.entry) (fun w change w' _ step h => ?_) h
  cases step with
  | skipped _ => exact h
  | built _ answer => exact I.built h answer
  | removed => exact I.removed _ h

theorem effect {j : Job} {old last : Option Entry} {r : Except SyncError Unit} {out : List SyncResult}
    (h : ∀ e, old = some e → P e) (plain : j.path.IsPlain) (effect : j.Effect c old r last out) :
    ∀ e, last = some e → P e := by
  intro e saved
  cases effect with
  | undeclared => exact nomatch saved
  | unread => exact nomatch saved
  | refused => exact nomatch saved
  | stopped begins _ recorded =>
    cases recorded with
    | nothing => exact nomatch saved
    | entry => exact Option.some.inj saved ▸ I.progress (I.start h plain begins.start) _
  | finished begins recorded entry =>
    cases recorded with
    | nothing => exact nomatch saved
    | entry => exact Option.some.inj saved ▸ entry ▸ I.progress (I.start h plain begins.start) _

theorem effects {js : List Job} {s s' : Store} {r : Except SyncError Unit} {out : List SyncResult} (h : s.All P)
    (plain : ∀ j ∈ js, j.path.IsPlain) (effects : Job.Effects c js s r s' out) : s.Saves P s' := by
  induction effects with
  | nil => exact .refl
  | @cons _ _ s _ _ _ _ _ first _ ih =>
    rw [List.forall_mem_cons] at plain
    have saves := Store.saves_saving (I.effect (fun e => h.entry?) plain.1 first) s
    exact saves.trans (ih (h.saves saves) plain.2)
  | stop first => exact Store.saves_saving (I.effect (fun e => h.entry?) (List.forall_mem_cons.mp plain).1 first) _

theorem deletion {name : String} {es : List Entry} {s s' : Store} {r : Except SyncError Unit} {out : List SyncResult}
    (hes : ∀ e ∈ es, P e) (deletion : Deletion name es s r s' out) : s.Saves P s' := by
  induction deletion with
  | nil => exact .refl
  | absent _ _ ih => exact ih (List.forall_mem_cons.mp hes).2
  | frozen _ _ _ ih => exact ih (List.forall_mem_cons.mp hes).2
  | removed _ _ _ ih =>
    rw [List.forall_mem_cons] at hes
    exact (Store.Saves.save .refl (I.removed _ hes.1)).trans (ih hes.2)
  | failed => exact .refl

/-- A call saves entries, and does nothing else to the catalog. -/
theorem run {s : Store} (h : s.All P) (call : Call) : s.Saves P (Reconcile.run c s call).store := by
  cases Reconcile.ends_run c s call with
  | refused _ store =>
    rw [store]
    exact .refl
  | acted plan deed =>
    cases deed with
    | jobs effects => exact I.effects h (Reconcile.planned plan).plain_jobs effects
    | deletion deletion =>
      refine I.deletion (fun e he => ?_) deletion
      cases Reconcile.planned plan with
      | delete _ _ _ => exact h e (List.mem_filter.mp he).1

omit c in
theorem step {s s' : Store} (h : s.All P) (step : s.Step s') : s'.All P := by
  cases step with
  | register now username => exact h.addUser now username
  | freeze entry version => exact h.replace (I.frozen (h.entry? entry) version)
  | call c call => exact h.saves (I.run h call)

/-- What holds of entries whatever is done to them holds of all entries that can come about. -/
theorem reachable {s : Store} (h : s.Reachable) : s.All P := by
  induction h with
  | refl => exact fun e he => absurd he List.not_mem_nil
  | tail _ step ih => exact I.step ih step

end Entry.Invariant

/-- What is the same for all entries, as to their addresses and their versions. -/
structure Entry.WellFormed (e : Entry) : Prop where
  plain : e.path.IsPlain
  id : e.id = e.path.entryId
  distinct : e.HasDistinctNames
  ascending : ∀ v ∈ e.versions, Ascending.IsAscending SourceFile.key v.sourceFiles

theorem Entry.WellFormed.of_core {e f : Entry} (h : e.WellFormed) (core : f.SameCore e) (distinct : f.HasDistinctNames)
    (ascending : ∀ v ∈ f.versions, Ascending.IsAscending SourceFile.key v.sourceFiles) : f.WellFormed :=
  ⟨core.path ▸ h.plain, by rw [core.id, core.path, h.id], distinct, ascending⟩

/-- Every entry is well-formed, whatever was done to it. -/
theorem Entry.invariant_wellFormed : Invariant Entry.WellFormed where
  new d plain := ⟨plain, rfl, List.nodup_nil, fun _ hv => absurd hv List.not_mem_nil⟩
  settings d h := h.of_core (sameCore_withSettings _ d) h.distinct h.ascending
  built {c e s v} h answer := by
    obtain ⟨files, checks, hb⟩ := Build.isBuilt_of_answer answer
    refine h.of_core ⟨rfl, rfl, rfl, rfl, rfl⟩ (h.distinct.upsert v) fun w hw => ?_
    rcases Keyed.mem_of_mem_upsert hw with rfl | hw
    · rw [hb.eq]
      exact Merge.isAscending_files _ _ _
    · exact h.ascending w hw
  removed name h :=
    h.of_core ⟨rfl, rfl, rfl, rfl, rfl⟩ (h.distinct.remove name) fun w hw => h.ascending w (List.mem_of_mem_eraseP hw)
  frozen {e name v} h found := by
    refine h.of_core ⟨rfl, rfl, rfl, rfl, rfl⟩ (h.distinct.upsert _) fun w hw => ?_
    rcases Keyed.mem_of_mem_upsert hw with rfl | hw
    · exact h.ascending v (List.mem_of_find?_eq_some found)
    · exact h.ascending w hw

namespace Store

/-- Entries are well-formed and have different identifiers. -/
structure WellFormed (s : Store) : Prop where
  entries : s.All Entry.WellFormed
  ids : (s.entries.map Entry.id).Nodup

variable {s : Store}

namespace WellFormed

theorem of_empty (empty : s.entries = []) : s.WellFormed :=
  ⟨fun e he => absurd (empty ▸ he) List.not_mem_nil, by rw [empty]; exact List.nodup_nil⟩

variable (h : s.WellFormed)
include h

/-- Identifiers and addresses tell the same entries apart. -/
theorem id_eq_iff {e f : Entry} (hf : f ∈ s.entries) (he : e.WellFormed) : f.id = e.id ↔ f.path = e.path := by
  have hf := h.entries f hf
  rw [hf.id, he.id]
  exact ⟨EntryPath.entryId_inj hf.plain he.plain, congrArg EntryPath.entryId⟩

theorem paths : (s.entries.map Entry.path).Nodup := by
  have ids : s.entries.map Entry.id = (s.entries.map Entry.path).map EntryPath.entryId := by
    rw [List.map_map]
    exact List.map_congr_left fun e he => (h.entries e he).id
  have distinct := h.ids
  rw [ids] at distinct
  exact (List.pairwise_map.mp distinct).imp fun ne e => ne (congrArg EntryPath.entryId e)

theorem entry?_eq_some_iff {p : EntryPath} {e : Entry} : s.entry? p = some e ↔ e ∈ s.entries ∧ e.path = p :=
  Keyed.find?_eq_some_iff h.paths

theorem entry?_save {e : Entry} (he : e.WellFormed) (p : EntryPath) :
    Store.entry? (s.save e) p = if e.path = p then some e else s.entry? p := by
  unfold Store.save Store.entry?
  rw [Keyed.upsert_congr fun f hf => h.id_eq_iff hf he]
  exact Keyed.find?_upsert Entry.path e s.entries p

theorem save {e : Entry} (he : e.WellFormed) : (s.save e).WellFormed :=
  ⟨h.entries.save he, Keyed.nodup_keys_upsert h.ids e⟩

theorem saves {t : Store} (k : s.Saves Entry.WellFormed t) : t.WellFormed := by
  induction k with
  | refl => exact h
  | save _ he ih => exact ih.save he

/-- Where there is an entry at the address, a replacement comes to a save. -/
theorem replace_eq_save {e f : Entry} (he : e.WellFormed) (found : s.entry? e.path = some f) :
    s.replace e = s.save e := by
  obtain ⟨hf, path⟩ := h.entry?_eq_some_iff.mp found
  rw [Store.replace, Store.save, replaceByPath_eq_upsert ⟨f, hf, path⟩,
    Keyed.upsert_congr fun f hf => h.id_eq_iff hf he]

theorem run (c : Context) (call : Call) : (Reconcile.run c s call).store.WellFormed :=
  h.saves (Entry.invariant_wellFormed.run h.entries call)

theorem step {s' : Store} (step : s.Step s') : s'.WellFormed := by
  cases step with
  | register now username => exact ⟨h.entries.addUser now username, by rw [entries_addUser]; exact h.ids⟩
  | freeze entry version =>
    have he := Entry.invariant_wellFormed.frozen (h.entries.entry? entry) version
    obtain ⟨-, rfl⟩ := h.entry?_eq_some_iff.mp entry
    rw [h.replace_eq_save he entry]
    exact h.save he
  | call c call => exact h.run c call

end WellFormed

theorem Reachable.wellFormed (h : s.Reachable) : s.WellFormed := by
  induction h with
  | refl => exact ⟨fun e he => absurd he List.not_mem_nil, List.nodup_nil⟩
  | tail _ step ih => exact ih.step step

end Store

/-! ## A small catalog -/

namespace Sample

def now : Timestamp := ⟨"2025-01-01T00:00:00Z", by decide +kernel⟩

def manifest : String := "version: 1.2\nworkflows:\n- subclass: WDL\n  primaryDescriptorPath: /m"

def files : List (String × String) :=
  [(Manifest.path, manifest), ("/m", "import \"t\"\ntask m \x7b\x7d"), ("/t", "task t \x7b\x7d")]

/-- The same files at each of the listed versions. -/
def remote (vs : List RemoteVersion) : Remote where
  list := fun _ => .ok vs
  file := fun _ _ path => .ok ((files.lookup path).map String.toUTF8)

def context (vs : List RemoteVersion) : Context where
  world := ⟨remote vs, fun _ => false, fun _ => none, fun _ => none, fun _ => true⟩
  options := .initial
  languages := Language.all
  now := now

def main : RemoteVersion := ⟨"main", .branch, "c1", none⟩

def path : EntryPath := ⟨.github, "org", "repo", none⟩

def refresh : Call := .refresh "org/repo" "alice"

/-- A catalog with an account and nothing else. -/
def registered : { s : Store // s.Reachable } := ⟨Store.empty.addUser now "alice", .single (.register now "alice")⟩

/-- One entry with one version. -/
def refreshed : { s : Store // s.Reachable } :=
  ⟨(Reconcile.run (context [main]) registered.1 refresh).store, .tail registered.2 (.call (context [main]) refresh)⟩

/-- The one version is frozen. -/
def frozen : { s : Store // s.Reachable } :=
  match he : refreshed.val.entry? path with
  | none => refreshed
  | some e =>
    match hv : e.version? "main" with
    | none => refreshed
    | some v => ⟨refreshed.1.replace (e.freeze v), .tail refreshed.2 (.freeze he hv)⟩

end Sample

end WorkflowCatalog
