import WorkflowCatalog.Proofs.Catalog

/-!
# What a call does at one address

No two jobs of a call are for one address, so what becomes of an entry can be told from its own job and from
the catalog as it was before the call. The same holds of the entries that a version is deleted from.
-/
namespace WorkflowCatalog

open Sync

theorem Store.WellFormed.entry?_saving {s : Store} (h : s.WellFormed) {last : Option Entry} {p : EntryPath}
    (hlast : ∀ e, last = some e → e.WellFormed ∧ e.path = p) (q : EntryPath) :
    Store.entry? (s.saving last) q = if q = p then last.or (s.entry? q) else s.entry? q := by
  cases last with
  | none => simp [Store.saving]
  | some e =>
    obtain ⟨he, rfl⟩ := hlast e rfl
    rw [Store.saving, h.entry?_save he]
    by_cases hq : e.path = q
    · simp [hq]
    · rw [if_neg hq, if_neg (Ne.symm hq)]

namespace Job

variable {c : Context}

/-- What is saved last by a job is well-formed and at the address of the job. -/
theorem Effect.wellFormed_last {s : Store} (hs : s.WellFormed) {j : Job} (plain : j.path.IsPlain) {last : Option Entry}
    {r : Except SyncError Unit} {out : List SyncResult} (h : j.Effect c (s.entry? j.path) r last out) :
    ∀ e, last = some e → e.WellFormed ∧ e.path = j.path :=
  fun e saved =>
    ⟨Entry.invariant_wellFormed.effect (fun _ => hs.entries.entry?) plain h e saved,
      h.path_last (fun _ found => (hs.entry?_eq_some_iff.mp found).2) e saved⟩

namespace Effects

variable {js : List Job} {s t : Store} {r : Except SyncError Unit} {out : List SyncResult}

theorem untouched (h : Effects c js s r t out) (hs : s.WellFormed) (plain : ∀ j ∈ js, j.path.IsPlain) {p : EntryPath}
    (hp : ∀ j ∈ js, j.path ≠ p) : t.entry? p = s.entry? p := by
  induction h with
  | nil => rfl
  | @cons _ _ s _ _ _ _ _ first _ ih =>
    rw [List.forall_mem_cons] at plain hp
    have hlast := first.wellFormed_last hs plain.1
    rw [ih (hs.saves (Store.saves_saving (fun e he => (hlast e he).1) s)) plain.2 hp.2, hs.entry?_saving hlast,
      if_neg hp.1.symm]
  | stop first =>
    rw [List.forall_mem_cons] at plain hp
    rw [hs.entry?_saving (first.wellFormed_last hs plain.1), if_neg hp.1.symm]

/-- What becomes of the entry of one job of several, of which each is for another entry. -/
structure Part (c : Context) (j : Job) (s t : Store) (r : Except SyncError Unit) (last : Option Entry)
    (out : List SyncResult) : Prop where
  effect : j.Effect c (s.entry? j.path) r last out
  entry? : t.entry? j.path = last.or (s.entry? j.path)

/-- Each job is done as if it were the only one, unless the call stops before it. -/
theorem part (h : Effects c js s r t out) (hs : s.WellFormed) (plain : ∀ j ∈ js, j.path.IsPlain)
    (distinct : (js.map Job.path).Nodup) :
    (∀ j ∈ js, (∃ r' last out', Part c j s t r' last out' ∧ (∀ x ∈ out', x ∈ out) ∧ (r = .ok () → r' = .ok ())) ∨
      (r ≠ .ok () ∧ t.entry? j.path = s.entry? j.path)) ∧
    ∀ x ∈ out, ∃ j ∈ js, ∃ r' last out', Part c j s t r' last out' ∧ x ∈ out' := by
  induction h with
  | nil => simp
  | @cons j js s t last r out more first rest ih =>
    rw [List.forall_mem_cons] at plain
    rw [List.map_cons, List.nodup_cons] at distinct
    have hlast := first.wellFormed_last hs plain.1
    have hs' := hs.saves (Store.saves_saving (fun e he => (hlast e he).1) s)
    have others : ∀ k ∈ js, k.path ≠ j.path := fun k hk e => distinct.1 (e ▸ List.mem_map_of_mem hk)
    have same : ∀ k ∈ js, Store.entry? (s.saving last) k.path = s.entry? k.path := fun k hk => by
      rw [hs.entry?_saving hlast, if_neg (others k hk)]
    have part : Part c j s t (.ok ()) last out := by
      refine ⟨first, ?_⟩
      rw [untouched rest hs' plain.2 others, hs.entry?_saving hlast, if_pos rfl]
    have parts : ∀ k ∈ js, ∀ {r' last' out'}, Part c k (s.saving last) t r' last' out' → Part c k s t r' last' out' :=
      fun k hk _ _ _ p => ⟨same k hk ▸ p.effect, same k hk ▸ p.entry?⟩
    obtain ⟨each, told⟩ := ih hs' plain.2 distinct.2
    constructor
    · intro k hk
      rcases List.mem_cons.mp hk with rfl | hk
      · exact .inl ⟨_, _, _, part, fun x hx => List.mem_append_left _ hx, fun _ => rfl⟩
      · obtain ⟨r', last', out', p, sub, ok⟩ | ⟨failed, unread⟩ := each k hk
        · exact .inl ⟨r', last', out', parts k hk p, fun x hx => List.mem_append_right _ (sub x hx), ok⟩
        · exact .inr ⟨failed, unread.trans (same k hk)⟩
    · intro x hx
      rcases List.mem_append.mp hx with hx | hx
      · exact ⟨j, List.mem_cons_self, _, _, _, part, hx⟩
      · obtain ⟨k, hk, r', last', out', p, hx⟩ := told x hx
        exact ⟨k, List.mem_cons_of_mem j hk, r', last', out', parts k hk p, hx⟩
  | @stop j js s last e out first =>
    rw [List.forall_mem_cons] at plain
    rw [List.map_cons, List.nodup_cons] at distinct
    have hlast := first.wellFormed_last hs plain.1
    have part : Part c j s (s.saving last) (.error e) last out :=
      ⟨first, by rw [hs.entry?_saving hlast, if_pos rfl]⟩
    refine ⟨fun k hk => ?_, fun x hx => ⟨j, List.mem_cons_self, _, _, _, part, hx⟩⟩
    rcases List.mem_cons.mp hk with rfl | hk
    · exact .inl ⟨_, _, _, part, fun x hx => hx, fun h => nomatch h⟩
    · refine .inr ⟨fun h => (nomatch h), ?_⟩
      rw [hs.entry?_saving hlast, if_neg fun (e : k.path = j.path) => distinct.1 (e ▸ List.mem_map_of_mem hk)]

end Effects

end Job

namespace Deletion

variable {name : String} {es : List Entry} {s t : Store} {r : Except SyncError Unit} {out : List SyncResult}

/-- An entry is left as it is, or it loses the version, which was not frozen. -/
theorem entry? (h : Deletion name es s r t out) (hs : s.WellFormed) (hes : ∀ e ∈ es, s.entry? e.path = some e)
    (distinct : (es.map Entry.path).Nodup) (p : EntryPath) :
    t.entry? p = s.entry? p ∨ ∃ e ∈ es, e.path = p ∧ t.entry? p = some (e.remove name) ∧
      ∃ v, e.version? name = some v ∧ v.frozen = false := by
  induction h with
  | nil => exact .inl rfl
  | absent _ _ ih | frozen _ _ _ ih =>
    rw [List.forall_mem_cons] at hes
    rw [List.map_cons, List.nodup_cons] at distinct
    exact (ih hs hes.2 distinct.2).imp_right fun ⟨f, hf, lost⟩ => ⟨f, List.mem_cons_of_mem _ hf, lost⟩
  | @removed e es s t _ _ v version mutable rest ih =>
    rw [List.forall_mem_cons] at hes
    rw [List.map_cons, List.nodup_cons] at distinct
    have he : (e.remove name).WellFormed := Entry.invariant_wellFormed.removed name (hs.entries.entry? hes.1)
    have saved : ∀ p, Store.entry? (s.save (e.remove name)) p = if e.path = p then some (e.remove name) else s.entry? p :=
      hs.entry?_save he
    have others : ∀ f ∈ es, Store.entry? (s.save (e.remove name)) f.path = some f := fun f hf => by
      rw [saved, if_neg fun (same : e.path = f.path) => distinct.1 (same ▸ List.mem_map_of_mem hf), hes.2 f hf]
    obtain same | ⟨f, hf, lost⟩ := ih (hs.save he) others distinct.2
    · rw [same, saved]
      split
      · rename_i path
        exact .inr ⟨e, List.mem_cons_self, path, rfl, v, version, mutable⟩
      · exact .inl rfl
    · exact .inr ⟨f, List.mem_cons_of_mem e hf, lost⟩
  | failed => exact .inl rfl

/-- A deletion tells of no version that was added or updated. -/
theorem told_eq_nil (h : Deletion name es s r t out) {x : SyncResult} (hx : x ∈ out) (isNew : Bool) :
    told isNew x = [] := by
  induction h with
  | nil => simp at hx
  | absent _ _ ih => exact ih hx
  | frozen _ _ _ ih | removed _ _ _ ih =>
    rcases List.mem_cons.mp hx with rfl | hx
    · cases isNew <;> rfl
    · exact ih hx
  | failed => simp at hx

end Deletion

namespace Reconcile

variable {c : Context} {s : Store} {call : Call}

/-- What may become of the entry at an address. -/
inductive Turn (c : Context) (s : Store) (call : Call) (p : EntryPath) : Option Entry → Prop
  | same : Turn c s call p (s.entry? p)
  | worked {js : List Job} {j : Job} {r : Except SyncError Unit} {last : Option Entry} {out : List SyncResult}
      (planned : Planned c s call (.jobs js)) (job : j ∈ js) (path : j.path = p)
      (effect : j.Effect c (s.entry? p) r last out) : Turn c s call p (last.or (s.entry? p))
  | cut {name : String} {es : List Entry} {e : Entry} {v : Version} (planned : Planned c s call (.deletion name es))
      (entry : s.entry? p = some e) (member : e ∈ es) (version : e.version? name = some v) (mutable : v.frozen = false) :
      Turn c s call p (some (e.remove name))

theorem Planned.entries_of_deletion (hs : s.WellFormed) {name : String} {es : List Entry}
    (h : Planned c s call (.deletion name es)) :
    (∀ e ∈ es, s.entry? e.path = some e) ∧ (es.map Entry.path).Nodup := by
  cases h with
  | delete _ _ _ =>
    exact ⟨fun e he => hs.entry?_eq_some_iff.mpr ⟨(List.mem_filter.mp he).1, rfl⟩,
      (List.filter_sublist.map Entry.path).nodup hs.paths⟩

theorem turn_run (hs : s.WellFormed) (c : Context) (call : Call) (p : EntryPath) :
    Turn c s call p ((run c s call).store.entry? p) := by
  cases ends_run c s call with
  | refused _ store =>
    rw [store]
    exact .same
  | acted plan deed =>
    have planned := planned plan
    cases deed with
    | @jobs js _ _ _ _ effects =>
      have plain := planned.plain_jobs
      by_cases hp : ∃ j ∈ js, j.path = p
      · obtain ⟨j, hj, rfl⟩ := hp
        obtain ⟨r, last, out, part, -⟩ | ⟨-, same⟩ := (effects.part hs plain planned.distinct_jobs).1 j hj
        · rw [part.entry?]
          exact .worked planned hj rfl part.effect
        · rw [same]
          exact .same
      · rw [effects.untouched hs plain fun j hj path => hp ⟨j, hj, path⟩]
        exact .same
    | deletion deletion =>
      obtain ⟨hes, distinct⟩ := planned.entries_of_deletion hs
      obtain same | ⟨e, he, rfl, lost, v, version, mutable⟩ := deletion.entry? hs hes distinct p
      · rw [same]
        exact .same
      · rw [lost]
        exact .cut planned (hes e he) he version mutable

/-- A version that a call tells of as added or updated comes of one of its jobs. -/
theorem part_of_told (hs : s.WellFormed) {x : SyncResult}
    (hx : x ∈ (run c s call).results) {isNew : Bool} {n : String} (hn : n ∈ told isNew x) :
    ∃ js, Planned c s call (.jobs js) ∧ ∃ j ∈ js, ∃ r last out,
      Job.Effects.Part c j s (run c s call).store r last out ∧ x ∈ out := by
  cases ends_run c s call with
  | refused _ _ results =>
    rw [results] at hx
    exact absurd (mem_of_told hx hn) List.not_mem_nil
  | acted plan deed results =>
    rw [results] at hx
    have hx := mem_of_told hx hn
    have planned := planned plan
    cases deed with
    | deletion deletion =>
      rw [deletion.told_eq_nil hx isNew] at hn
      exact absurd hn List.not_mem_nil
    | jobs effects =>
      exact ⟨_, planned, (effects.part hs planned.plain_jobs planned.distinct_jobs).2 x hx⟩

end Reconcile

end WorkflowCatalog
