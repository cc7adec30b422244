import WorkflowCatalog.Proofs.Removal

/-!
# What events change

An event tells of a push or of a deletion, and its type alone decides what may become of the catalog. A deletion takes
versions away and adds none, in whatever catalog. A push takes none away, so long as each entry has the identifier of
its address: entries are saved by their identifiers, so an entry with the identifier of another address would be lost
when that address is pushed to.
-/
namespace WorkflowCatalog

namespace Keyed

/-- A member stays, or it is the one that is replaced. -/
theorem mem_upsert_or_found {κ α : Type} [DecidableEq κ] {key : α → κ} {b : α} {xs : List α} (h : b ∈ xs) (a : α) :
    b ∈ upsert key a xs ∨ xs.find? (fun x => key x == key a) = some b := by
  induction xs with
  | nil => exact absurd h List.not_mem_nil
  | cons c cs ih =>
    rw [upsert]
    by_cases same : key c = key a
    · rw [if_pos same, List.find?_cons_of_pos (by simpa using same)]
      rcases List.mem_cons.mp h with rfl | later
      · exact .inr rfl
      · exact .inl (List.mem_cons_of_mem a later)
    · rw [if_neg same, List.find?_cons_of_neg (by simpa using same)]
      rcases List.mem_cons.mp h with rfl | later
      · exact .inl List.mem_cons_self
      · exact (ih later).imp_left (List.mem_cons_of_mem c)

end Keyed

/-- The entry has the identifier of its address, which tells the address. -/
structure Entry.IsAddressed (e : Entry) : Prop where
  plain : e.path.IsPlain
  id : e.id = e.path.entryId

theorem Entry.WellFormed.isAddressed {e : Entry} (h : e.WellFormed) : e.IsAddressed := ⟨h.plain, h.id⟩

theorem Entry.IsAddressed.of_core {e f : Entry} (h : e.IsAddressed) (core : f.SameCore e) : f.IsAddressed :=
  ⟨core.path ▸ h.plain, by rw [core.id, core.path, h.id]⟩

theorem Entry.invariant_isAddressed : Invariant Entry.IsAddressed where
  new _ plain := ⟨plain, rfl⟩
  settings d h := h.of_core (sameCore_withSettings _ d)
  built h _ := h.of_core ⟨rfl, rfl, rfl, rfl, rfl⟩
  removed _ h := h.of_core ⟨rfl, rfl, rfl, rfl, rfl⟩
  frozen h _ := h.of_core ⟨rfl, rfl, rfl, rfl, rfl⟩

theorem Entry.IsAddressed.id_eq_iff {e f : Entry} (he : e.IsAddressed) (hf : f.IsAddressed) :
    e.id = f.id ↔ e.path = f.path := by
  rw [he.id, hf.id]
  exact ⟨EntryPath.entryId_inj he.plain hf.plain, congrArg EntryPath.entryId⟩

/-- Every version of the first entry has one of its name in the second. -/
def Entry.NamesWithin (e f : Entry) : Prop := ∀ v ∈ e.versions, ∃ w ∈ f.versions, w.name = v.name

theorem Entry.NamesWithin.refl (e : Entry) : e.NamesWithin e := fun v hv => ⟨v, hv, rfl⟩

theorem Entry.NamesWithin.upsert {e f : Entry} (h : e.NamesWithin f) (v : Version) : e.NamesWithin (f.upsert v) := by
  intro u hu
  obtain ⟨w, hw, name⟩ := h u hu
  by_cases same : w.name = v.name
  · exact ⟨v, Keyed.mem_upsert_self _ _ _, same.symm.trans name⟩
  · exact ⟨w, Keyed.mem_upsert_of_mem hw same, name⟩

namespace Store

/-- No version of any entry is missing in the second catalog. -/
def Keeps (s t : Store) : Prop := ∀ e ∈ s.entries, ∃ f ∈ t.entries, f.path = e.path ∧ e.NamesWithin f

/-- The entries of the second catalog, and their versions, are all in the first one. -/
def Covers (s t : Store) : Prop := ∀ f ∈ t.entries, ∃ e ∈ s.entries, e.path = f.path ∧ f.versions ⊆ e.versions

variable {s t : Store}

theorem Keeps.refl (s : Store) : s.Keeps s := fun e he => ⟨e, he, rfl, .refl e⟩

theorem Keeps.trans {u : Store} (h : s.Keeps t) (k : t.Keeps u) : s.Keeps u := by
  intro e he
  obtain ⟨f, hf, path, names⟩ := h e he
  obtain ⟨g, hg, path', names'⟩ := k f hf
  refine ⟨g, hg, path'.trans path, fun v hv => ?_⟩
  obtain ⟨w, hw, name⟩ := names v hv
  obtain ⟨x, hx, name'⟩ := names' w hw
  exact ⟨x, hx, name'.trans name⟩

theorem Covers.refl (s : Store) : s.Covers s := fun f hf => ⟨f, hf, rfl, fun _ => id⟩

/-- An entry is saved in the place of the one at its address. -/
theorem keeps_save (hs : s.All Entry.IsAddressed) {f : Entry} (hf : f.IsAddressed)
    (old : ∀ e, s.entry? f.path = some e → e.NamesWithin f) : s.Keeps (s.save f) := by
  have place : (s.save f).entries = Keyed.upsert Entry.path f s.entries :=
    Keyed.upsert_congr fun e he => (hs e he).id_eq_iff hf
  intro e he
  rw [place]
  have kept : e ∈ Keyed.upsert Entry.path f s.entries ∨ s.entry? f.path = some e := Keyed.mem_upsert_or_found he f
  rcases kept with stays | replaced
  · exact ⟨e, stays, rfl, .refl e⟩
  · have path := List.find?_some replaced
    exact ⟨f, Keyed.mem_upsert_self _ _ _, (beq_iff_eq.mp path).symm, old e replaced⟩

end Store

namespace Sync

/-- Where no change takes a version away, all names stay. -/
theorem namesWithin_progress {c : Context} {sources : List VersionSource} {w : Work} {done : List Change}
    (kept : ∀ name, .remove name ∉ done) : w.entry.NamesWithin (progress c sources w done).entry := by
  refine progress_induction (P := fun x => w.entry.NamesWithin x.entry) (fun x change y member step h => ?_) (.refl _)
  cases step with
  | skipped => exact h
  | built => exact h.upsert _
  | removed => exact absurd member (kept _)

end Sync

namespace Job

open Sync

variable {c : Context} {j : Job} {s t : Store} {r : Except SyncError Unit} {last : Option Entry} {out : List SyncResult}

/-- A job of a push leaves the entry at its address with all names that it had. -/
theorem Effect.namesWithin {old : Option Entry} (effect : j.Effect c old r last out) (mode : j.mode = .push) {e f : Entry}
    (found : old = some e) (saved : last = some f) : e.NamesWithin f := by
  obtain rfl | ⟨before, isNew, d, done, begins, made, rfl⟩ := effect.last_eq
  · exact nomatch saved
  · subst found
    obtain rfl := begins.eq
    obtain rfl := Option.some.inj saved
    have kept : ∀ name, .remove name ∉ done := by
      intro name member
      cases (VersionDiff.mem_changes begins.compared).mp (made.subset member) with
      | removed full => exact nomatch mode.symm.trans full
    intro v hv
    rw [← versions_firstWork j before d] at hv
    exact namesWithin_progress kept v hv

theorem keeps_saving (hs : s.All Entry.IsAddressed) (plain : j.path.IsPlain) (mode : j.mode = .push)
    (effect : j.Effect c (s.entry? j.path) r last out) : s.Keeps (s.saving last) := by
  cases last with
  | none => exact .refl s
  | some f =>
    have addressed := Entry.invariant_isAddressed.effect (fun e => hs.entry?) plain effect f rfl
    have old : ∀ e, s.entry? j.path = some e → e.path = j.path := by
      intro e found
      have hit := List.find?_some found
      exact beq_iff_eq.mp hit
    have path : f.path = j.path := effect.path_last old f rfl
    refine Store.keeps_save hs addressed fun e found => ?_
    exact effect.namesWithin mode (path ▸ found) rfl

/-- Jobs of a push keep all versions, one after the other. -/
theorem Effects.keeps {js : List Job} (effects : Effects c js s r t out) (hs : s.All Entry.IsAddressed)
    (plain : ∀ j ∈ js, j.path.IsPlain) (mode : ∀ j ∈ js, j.mode = .push) : s.Keeps t := by
  induction effects with
  | nil => exact .refl _
  | @cons _ _ s _ _ _ _ _ first _ ih =>
    rw [List.forall_mem_cons] at plain mode
    have saves := Store.saves_saving (Entry.invariant_isAddressed.effect (fun e => hs.entry?) plain.1 first) s
    exact (keeps_saving hs plain.1 mode.1 first).trans (ih (hs.saves saves) plain.2 mode.2)
  | stop first =>
    exact keeps_saving hs (plain _ List.mem_cons_self) (mode _ List.mem_cons_self) first

end Job

/-- Entries of a catalog from which one version is taken are covered by the catalog, and so are all others. -/
theorem Deletion.covers {name : String} {es : List Entry} {origin s t : Store} {r : Except SyncError Unit}
    {out : List SyncResult} (h : Deletion name es s r t out) (old : origin.Covers s) (known : ∀ e ∈ es, e ∈ origin.entries) :
    origin.Covers t := by
  induction h with
  | nil => exact old
  | absent _ _ ih => exact ih old (List.forall_mem_cons.mp known).2
  | frozen _ _ _ ih => exact ih old (List.forall_mem_cons.mp known).2
  | failed => exact old
  | @removed e _ _ _ _ _ _ _ _ _ ih =>
    rw [List.forall_mem_cons] at known
    refine ih (fun f hf => ?_) known.2
    rcases Keyed.mem_of_mem_upsert hf with rfl | unchanged
    · exact ⟨e, known.1, rfl, List.eraseP_subset⟩
    · exact old f unchanged

namespace Reconcile

/-- A push takes no version away. -/
theorem keeps_push {s : Store} (hs : s.All Entry.IsAddressed) (c : Context) {e : WebhookEvent} (type : e.type = .push) :
    s.Keeps (run c s (.event e)).store := by
  cases ends_run c s (.event e) with
  | refused _ store =>
    rw [store]
    exact .refl s
  | acted plan deed =>
    cases deed with
    | jobs effects =>
      have planned := planned plan
      refine effects.keeps hs planned.plain_jobs fun j hj => ?_
      cases planned with
      | push =>
        obtain ⟨d, -, rfl⟩ := List.mem_map.mp hj
        rfl
    | deletion =>
      cases planned plan with
      | delete other => exact nomatch type.symm.trans other

/-- An entry with the identifier of another address is lost when that address is pushed to. -/
example :
    let stray : Entry := { Entry.new ⟨.gitlab, "a", "b", none⟩ .workflow .wdl "/m" with id := Sample.path.entryId }
    let s : Store := { Sample.registered.1 with entries := [stray] }
    let o := run (Sample.context [Sample.main]) s (.event ⟨"org/repo", "refs/heads/main", "alice", "0", .push⟩)
    o.store.entries.map Entry.path = [Sample.path] := by decide +kernel

/-- A deletion adds no entry and no version, and changes none. -/
theorem covers_delete (c : Context) (s : Store) {e : WebhookEvent} (type : e.type = .delete) :
    s.Covers (run c s (.event e)).store := by
  cases ends_run c s (.event e) with
  | refused _ store =>
    rw [store]
    exact .refl s
  | acted plan deed =>
    cases planned plan with
    | push other => exact nomatch type.symm.trans other
    | delete =>
      cases deed with
      | deletion deletion => exact deletion.covers (.refl s) fun f hf => (List.mem_filter.mp hf).1

end Reconcile

end WorkflowCatalog
