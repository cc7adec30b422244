import WorkflowCatalog.Proofs.Convergence
import WorkflowCatalog.Proofs.Removal

/-!
# Results account for the catalog

A result tells of an entry which versions are new, which are gone, and, among others, each version that was
replaced. This holds however the call ends, since a change is told exactly if it was saved. What no result tells
of is as it was.
-/
namespace WorkflowCatalog

open Sync Reconcile

/-- The names that a result tells are those of the versions that differ. -/
structure SyncResult.Accounts (x : SyncResult) (before after : List Version) : Prop where
  added : ∀ n, n ∈ x.added ↔ (∃ v ∈ after, v.name = n) ∧ ∀ v ∈ before, v.name ≠ n
  removed : ∀ n, n ∈ x.removed ↔ (∃ v ∈ before, v.name = n) ∧ ∀ v ∈ after, v.name ≠ n
  updated : ∀ v ∈ before, ∀ w ∈ after, w.name = v.name → w ≠ v → v.name ∈ x.updated

theorem SyncResult.Accounts.of_sameChanges {x y : SyncResult} (h : x.SameChanges y) {before after : List Version}
    (accounts : y.Accounts before after) : x.Accounts before after :=
  ⟨fun n => by rw [h.added, accounts.added], fun n => by rw [h.removed, accounts.removed],
    fun v hv w hw named differs => h.updated ▸ accounts.updated v hv w hw named differs⟩

/-- It is enough to look at each name on its own. -/
theorem SyncResult.accounts_of_version? {x : SyncResult} {e f : Entry} (he : e.HasDistinctNames)
    (hf : f.HasDistinctNames) (added : ∀ n, n ∈ x.added ↔ (f.version? n).isSome = true ∧ e.version? n = none)
    (removed : ∀ n, n ∈ x.removed ↔ (e.version? n).isSome = true ∧ f.version? n = none)
    (updated : ∀ n v w, e.version? n = some v → f.version? n = some w → w ≠ v → n ∈ x.updated) :
    x.Accounts e.versions f.versions where
  added n := by rw [added, Entry.isSome_version?_iff, Entry.version?_eq_none_iff]
  removed n := by rw [removed, Entry.isSome_version?_iff, Entry.version?_eq_none_iff]
  updated v hv w hw named := updated v.name v w ((Entry.version?_eq_some_iff he).mpr ⟨hv, rfl⟩)
    ((Entry.version?_eq_some_iff hf).mpr ⟨hw, named⟩)

/-- A result without changes accounts for versions that are the same. -/
theorem SyncResult.accounts_of_same {x : SyncResult} (idle : x.hasChanges = false) {vs : List Version}
    (distinct : (vs.map Version.name).Nodup) : x.Accounts vs vs := by
  simp only [hasChanges, Bool.not_eq_false', Bool.and_eq_true, List.isEmpty_iff] at idle
  obtain ⟨⟨added, -⟩, removed⟩ := idle
  refine ⟨fun n => ?_, fun n => ?_, fun v hv w hw named differs => ?_⟩
  · rw [added]
    refine iff_of_false List.not_mem_nil fun both => ?_
    obtain ⟨⟨v, hv, named⟩, absent⟩ := both
    exact absent v hv named
  · rw [removed]
    refine iff_of_false List.not_mem_nil fun both => ?_
    obtain ⟨⟨v, hv, named⟩, absent⟩ := both
    exact absent v hv named
  · have found := (Keyed.find?_eq_some_iff distinct).mpr ⟨hv, rfl⟩
    exact absurd (Option.some.inj (((Keyed.find?_eq_some_iff distinct).mpr ⟨hw, named⟩).symm.trans found)) differs

/-- A result that accounts for versions that are the same tells of none that is new or gone. -/
theorem SyncResult.Accounts.idle {x : SyncResult} {vs : List Version} (h : x.Accounts vs vs) :
    x.added = [] ∧ x.removed = [] := by
  refine ⟨List.eq_nil_iff_forall_not_mem.mpr fun n hn => ?_, List.eq_nil_iff_forall_not_mem.mpr fun n hn => ?_⟩
  · obtain ⟨⟨v, hv, named⟩, absent⟩ := (h.added n).mp hn
    exact absent v hv named
  · obtain ⟨⟨v, hv, named⟩, absent⟩ := (h.removed n).mp hn
    exact absent v hv named

theorem Reconcile.distinct_versionsOf {e : Option Entry} (h : ∀ f, e = some f → f.HasDistinctNames) :
    ((versionsOf e).map Version.name).Nodup := by
  cases e with
  | none => exact List.nodup_nil
  | some f => exact h f rfl

namespace Sync

variable {c : Context} {sources : List VersionSource}

theorem removed_advance_build (w : Work) (isNew : Bool) (name : String) :
    (advance c sources w (.build isNew name)).result.removed = w.result.removed := by
  rw [advance_build]
  match rebuilt? c sources w.entry name with
  | none => rfl
  | some (.error _) => rfl
  | some (.ok _) => cases isNew <;> rfl

theorem mem_removed_progress {w : Work} {done : List Change} {n : String} :
    n ∈ (progress c sources w done).result.removed ↔ n ∈ w.result.removed ∨ .remove n ∈ done := by
  induction done generalizing w with
  | nil => simp
  | cons change done ih =>
    rw [progress_cons, ih, List.mem_cons, ← or_assoc]
    refine or_congr_left ?_
    cases change with
    | build isNew name => simp [removed_advance_build]
    | remove name => simp [advance]

section Progress

variable {w : Work} {listing : RemoteListing} {mode : DiffMode} {forced : List String} {d : VersionDiff}
  {done : List Change} {n : String} (distinct : w.entry.HasDistinctNames)
include distinct

/-- A version that differs has its change among those that were made. -/
theorem changed_of_differs (differs : (progress c sources w done).entry.version? n ≠ w.entry.version? n) :
    ∃ change ∈ done, change.name = n :=
  Classical.byContradiction fun none_made =>
    differs (version?_progress_of_not_mem distinct fun change hc named => none_made ⟨change, hc, named⟩)

variable (compared : diff w.entry.versions listing mode forced = .ok d) (made : done <+: d.changes)
include compared made

/-- The names that are told as added are those of the versions that are new. -/
theorem mem_added_progress (idle : w.result.added = []) :
    n ∈ (progress c sources w done).result.added ↔
      ((progress c sources w done).entry.version? n).isSome = true ∧ w.entry.version? n = none := by
  have names := VersionDiff.nodup_of_prefix compared distinct made
  have reason {change : Change} (hc : change ∈ done) := (VersionDiff.mem_changes compared).mp (made.subset hc)
  rw [show (progress c sources w done).result.added = told true (progress c sources w done).result from rfl,
    mem_told_progress distinct names, show told true w.result = [] from idle]
  constructor
  · rintro (hn | ⟨hc, v, rebuilt⟩)
    · exact absurd hn List.not_mem_nil
    · have new : (progress c sources w done).entry.version? n = after c sources w.entry (.build true n) :=
        version?_progress_of_mem distinct names hc
      rw [after_build, rebuilt] at new
      cases reason hc with
      | added _ absent => exact ⟨by rw [new]; rfl, absent⟩
  · rintro ⟨present, absent⟩
    obtain ⟨change, hc, rfl⟩ := changed_of_differs (n := n) distinct fun same => by
      rw [same, absent] at present
      exact nomatch present
    rw [version?_progress_of_mem distinct names hc] at present
    cases reason hc with
    | added =>
      obtain ⟨v, hv⟩ := Option.isSome_iff_exists.mp present
      exact .inr ⟨hc, v, (of_after_build hv).resolve_right fun found => nomatch absent.symm.trans found⟩
    | updated _ found _ _ => exact nomatch absent.symm.trans found
    | removed => exact nomatch present

/-- The names that are told as removed are those of the versions that are gone. -/
theorem removed_progress_iff (idle : w.result.removed = []) :
    n ∈ (progress c sources w done).result.removed ↔
      (w.entry.version? n).isSome = true ∧ (progress c sources w done).entry.version? n = none := by
  have names := VersionDiff.nodup_of_prefix compared distinct made
  rw [mem_removed_progress, idle]
  constructor
  · rintro (hn | hc)
    · exact absurd hn List.not_mem_nil
    · refine ⟨?_, version?_progress_of_mem distinct names hc⟩
      generalize hchange : Change.remove n = change at hc
      cases (VersionDiff.mem_changes compared).mp (made.subset hc) with
      | removed _ _ _ member _ =>
        rw [(Entry.version?_eq_some_iff distinct).mpr ⟨member, (Change.remove.inj hchange).symm⟩]
        rfl
      | added => exact nomatch hchange
      | updated => exact nomatch hchange
  · rintro ⟨present, gone⟩
    obtain ⟨v, found⟩ := Option.isSome_iff_exists.mp present
    exact .inr (remove_mem_of_gone distinct names found gone)

/-- A version that was replaced is told as updated. -/
theorem mem_updated_progress {v u : Version} (hv : w.entry.version? n = some v)
    (hu : (progress c sources w done).entry.version? n = some u) (differs : u ≠ v) :
    n ∈ (progress c sources w done).result.updated := by
  have names := VersionDiff.nodup_of_prefix compared distinct made
  obtain ⟨change, hc, rfl⟩ := changed_of_differs (n := n) distinct fun same =>
    differs (Option.some.inj (hu.symm.trans (same.trans hv)))
  rw [version?_progress_of_mem distinct names hc] at hu
  cases (VersionDiff.mem_changes compared).mp (made.subset hc) with
  | added _ absent => exact nomatch absent.symm.trans hv
  | @updated r _ _ _ _ _ =>
    rw [Change.name_build] at hv
    have rebuilt := (of_after_build hu).resolve_right fun kept => differs (Option.some.inj (kept.symm.trans hv))
    have told : r.name ∈ told false (progress c sources w done).result :=
      (mem_told_progress distinct names).mpr (.inr ⟨hc, u, rebuilt⟩)
    exact told
  | removed => exact nomatch hu

variable (c sources) in
/-- After the first changes that a comparison asks for, the names that are told are those of the versions that differ
by then. -/
theorem accounts_progress (idle : w.result.hasChanges = false) :
    (progress c sources w done).result.Accounts w.entry.versions (progress c sources w done).entry.versions := by
  simp only [SyncResult.hasChanges, Bool.not_eq_false', Bool.and_eq_true, List.isEmpty_iff] at idle
  obtain ⟨⟨added, -⟩, removed⟩ := idle
  exact SyncResult.accounts_of_version? distinct (distinct_progress distinct done)
    (fun _ => mem_added_progress distinct compared made added)
    (fun _ => removed_progress_iff distinct compared made removed)
    fun _ _ _ hv hu differs => mem_updated_progress distinct compared made hv hu differs

end Progress

end Sync

namespace Job

variable {c : Context} {j : Job} {old last : Option Entry} {r : Except SyncError Unit} {out : List SyncResult}

theorem Begins.versionsOf {before : Entry} {isNew : Bool} {d : VersionDiff} (h : j.Begins old before isNew d) :
    versionsOf old = before.versions := by
  obtain ⟨rfl, -⟩ | ⟨rfl, -, s, _, -, rfl⟩ := startingPoint_eq_some h.start <;> rfl

/-- Whether or not the work has been saved, the catalog has its versions. -/
theorem Recorded.versionsOf {before : Entry} {isNew : Bool} {d : VersionDiff} (h : j.Begins old before isNew d)
    {w : Work} (recorded : Recorded (j.firstWork before d) w last) :
    Reconcile.versionsOf (last.or old) = w.entry.versions := by
  cases recorded with
  | nothing same _ _ => rw [same, versions_firstWork, Option.none_or, h.versionsOf]
  | entry => rfl

/-- A job hands in one result at most, and the result accounts for the entry of the job. -/
theorem Effect.told (h : j.Effect c old r last out) (distinct : ∀ e, old = some e → e.HasDistinctNames) :
    (out = [] ∧ versionsOf (last.or old) = versionsOf old) ∨
      ∃ x, out = [x] ∧ x.entry = some j.path.toText ∧ x.Accounts (versionsOf old) (versionsOf (last.or old)) := by
  cases h with
  | undeclared => exact .inl ⟨rfl, rfl⟩
  | unread => exact .inl ⟨rfl, rfl⟩
  | refused =>
    exact .inr ⟨_, rfl, rfl, SyncResult.accounts_of_same rfl (distinct_versionsOf distinct)⟩
  | @stopped before isNew d done err x last begins made recorded result failed =>
    have first := distinct_firstWork (j := j) (d := d) (begins.distinct distinct)
    have same : x.SameChanges (progress c j.sources (j.firstWork before d) done).result := by
      rcases result with rfl | rfl
      · exact .refl _
      · exact SyncResult.sameChanges_fail _ _
    have accounts := accounts_progress c j.sources first begins.compared made rfl
    rw [versions_firstWork] at accounts
    refine .inr ⟨x, rfl, same.entry.trans (entry_progress _ _), ?_⟩
    rw [begins.versionsOf, recorded.versionsOf begins]
    exact accounts.of_sameChanges same
  | @finished before isNew d w last out begins recorded entry result unsaved told =>
    have first := distinct_firstWork (j := j) (d := d) (begins.distinct distinct)
    have accounts := accounts_progress c j.sources first begins.compared (List.prefix_refl _) rfl
    rw [versions_firstWork] at accounts
    rw [begins.versionsOf, recorded.versionsOf begins, entry]
    rcases told with rfl | ⟨rfl, idle⟩
    · exact .inr ⟨w.result, rfl, result ▸ entry_progress _ _, result ▸ accounts⟩
    · refine .inl ⟨rfl, ?_⟩
      rw [changes_of_isEmpty idle, progress_nil, versions_firstWork]

end Job

/-- A call does its work on one entry after the other. What it does to one leaves all others as they are, and is
told in one result at most. -/
structure Move (p : EntryPath) (s t : Store) (out : List SyncResult) : Prop where
  elsewhere : ∀ q, q ≠ p → t.entry? q = s.entry? q
  told : (out = [] ∧ versionsOf (t.entry? p) = versionsOf (s.entry? p)) ∨
    ∃ x, out = [x] ∧ x.entry = some p.toText ∧ x.Accounts (versionsOf (s.entry? p)) (versionsOf (t.entry? p))

theorem Move.idle (p : EntryPath) (s : Store) : Move p s s [] := ⟨fun _ _ => rfl, .inl ⟨rfl, rfl⟩⟩

/-- The moves of a call, at the first of some addresses. -/
inductive Moves : List EntryPath → Store → Store → List SyncResult → Prop
  | done {ps : List EntryPath} (s : Store) : Moves ps s s []
  | cons {p : EntryPath} {ps : List EntryPath} {s t u : Store} {out more : List SyncResult} (first : Move p s t out)
      (rest : Moves ps t u more) : Moves (p :: ps) s u (out ++ more)

namespace Moves

variable {ps : List EntryPath} {s t : Store} {out : List SyncResult}

theorem elsewhere (h : Moves ps s t out) {q : EntryPath} (hq : q ∉ ps) : t.entry? q = s.entry? q := by
  induction h with
  | done => rfl
  | cons first _ ih =>
    rw [List.mem_cons, not_or] at hq
    rw [ih hq.2, first.elsewhere q hq.1]

/-- Results name the entries in the order of the moves. -/
theorem sublist (h : Moves ps s t out) : (out.filterMap SyncResult.entry).Sublist (ps.map EntryPath.toText) := by
  induction h with
  | done => exact List.nil_sublist _
  | cons first _ ih =>
    rw [List.map_cons]
    obtain ⟨rfl, -⟩ | ⟨x, rfl, named, -⟩ := first.told
    · exact ih.trans (List.sublist_cons_self _ _)
    · rw [List.singleton_append, List.filterMap_cons_some named]
      exact ih.cons_cons _

theorem named_of_mem (h : Moves ps s t out) {x : SyncResult} (hx : x ∈ out) : ∃ p ∈ ps, x.entry = some p.toText := by
  induction h with
  | done => exact absurd hx List.not_mem_nil
  | @cons p ps _ _ _ _ _ first _ ih =>
    rcases List.mem_append.mp hx with hx | hx
    · obtain ⟨rfl, -⟩ | ⟨y, rfl, named, -⟩ := first.told
      · exact absurd hx List.not_mem_nil
      · exact ⟨p, List.mem_cons_self, List.mem_singleton.mp hx ▸ named⟩
    · obtain ⟨q, hq, named⟩ := ih hx
      exact ⟨q, List.mem_cons_of_mem p hq, named⟩

theorem mem_of_named (h : Moves ps s t out) (plain : ∀ p ∈ ps, p.IsPlain) {q : EntryPath} (hq : q.IsPlain)
    {x : SyncResult} (hx : x ∈ out) (named : x.entry = some q.toText) : q ∈ ps := by
  obtain ⟨p, hp, same⟩ := List.mem_map.mp (h.sublist.subset (List.mem_filterMap.mpr ⟨x, hx, named⟩))
  exact EntryPath.toText_inj (plain p hp) hq same ▸ hp

/-- What a result tells of an address accounts for it, and what none tells of is as it was. -/
theorem tells (h : Moves ps s t out) (plain : ∀ p ∈ ps, p.IsPlain) (distinct : ps.Nodup) {q : EntryPath}
    (hq : q.IsPlain) :
    (∀ x ∈ out, x.entry = some q.toText → x.Accounts (versionsOf (s.entry? q)) (versionsOf (t.entry? q))) ∧
      ((∀ x ∈ out, x.entry ≠ some q.toText) → versionsOf (t.entry? q) = versionsOf (s.entry? q)) := by
  induction h with
  | done => simp
  | @cons p ps s t u out more first rest ih =>
    rw [List.forall_mem_cons] at plain
    rw [List.nodup_cons] at distinct
    simp only [List.forall_mem_append]
    by_cases same : q = p
    · subst same
      have others : ∀ x ∈ more, x.entry ≠ some q.toText := fun x hx named =>
        distinct.1 (rest.mem_of_named plain.2 hq hx named)
      rw [rest.elsewhere distinct.1]
      obtain ⟨rfl, kept⟩ | ⟨x, rfl, named, accounts⟩ := first.told
      · exact ⟨⟨by simp, fun x hx named => absurd named (others x hx)⟩, fun _ => kept⟩
      · refine ⟨⟨fun y hy _ => List.mem_singleton.mp hy ▸ accounts, fun x hx named => absurd named (others x hx)⟩,
          fun untold => absurd named (untold.1 x List.mem_cons_self)⟩
    · rw [← first.elsewhere q same]
      obtain ⟨accounts, untold⟩ := ih plain.2 distinct.2
      refine ⟨⟨fun x hx named => ?_, accounts⟩, fun none_tells => untold none_tells.2⟩
      obtain ⟨rfl, -⟩ | ⟨y, rfl, other, -⟩ := first.told
      · exact absurd hx List.not_mem_nil
      · rw [List.mem_singleton.mp hx, other, Option.some.injEq] at named
        exact absurd (EntryPath.toText_inj plain.1 hq named).symm same

end Moves

namespace Job

variable {c : Context} {s t : Store} {r : Except SyncError Unit} {out : List SyncResult}

theorem Effect.move (hs : s.WellFormed) {j : Job} (plain : j.path.IsPlain) {last : Option Entry}
    (h : j.Effect c (s.entry? j.path) r last out) : Move j.path s (s.saving last) out := by
  have saved := hs.entry?_saving (h.wellFormed_last hs plain)
  refine ⟨fun q other => by rw [saved, if_neg other], ?_⟩
  rw [saved, if_pos rfl]
  exact h.told fun e found => (hs.entries.entry? found).distinct

theorem Effects.moves {js : List Job} (h : Effects c js s r t out) (hs : s.WellFormed)
    (plain : ∀ j ∈ js, j.path.IsPlain) : Moves (js.map Job.path) s t out := by
  induction h with
  | nil s => exact .done s
  | @cons _ _ s _ _ _ _ _ first _ ih =>
    rw [List.forall_mem_cons] at plain
    have hlast := first.wellFormed_last hs plain.1
    exact .cons (first.move hs plain.1) (ih (hs.saves (Store.saves_saving (fun e he => (hlast e he).1) s)) plain.2)
  | @stop _ _ _ _ _ out first =>
    rw [List.forall_mem_cons] at plain
    rw [List.map_cons, ← List.append_nil out]
    exact .cons (first.move hs plain.1) (.done _)

end Job

/-- The removal of a version accounts for its entry. -/
theorem accounts_remove {e : Entry} (distinct : e.HasDistinctNames) {name : String} {v : Version}
    (version : e.version? name = some v) :
    ({ SyncResult.forEntry e.path with removed := [name] } : SyncResult).Accounts e.versions (e.remove name).versions := by
  refine SyncResult.accounts_of_version? distinct (distinct.remove name) (fun n => ?_) (fun n => ?_)
    fun n v w hv hw differs => ?_
  · rw [Entry.version?_remove distinct]
    refine iff_of_false List.not_mem_nil fun ⟨present, absent⟩ => ?_
    split at present
    · exact nomatch present
    · rw [absent] at present
      exact nomatch present
  · rw [Entry.version?_remove distinct, List.mem_singleton]
    by_cases hn : name = n
    · subst hn
      simp [version]
    · rw [if_neg hn]
      refine iff_of_false (Ne.symm hn) fun ⟨present, absent⟩ => ?_
      rw [absent] at present
      exact nomatch present
  · rw [Entry.version?_remove distinct] at hw
    split at hw
    · exact nomatch hw
    · exact absurd (Option.some.inj (hw.symm.trans hv)) differs

theorem Deletion.moves {name : String} {es : List Entry} {s t : Store} {r : Except SyncError Unit}
    {out : List SyncResult} (h : Deletion name es s r t out) (hs : s.WellFormed)
    (hes : ∀ e ∈ es, s.entry? e.path = some e) (distinct : (es.map Entry.path).Nodup) :
    Moves (es.map Entry.path) s t out := by
  induction h with
  | nil s => exact .done s
  | @absent e es s _ _ _ version rest ih =>
    rw [List.forall_mem_cons] at hes
    have moves := Moves.cons (.idle e.path s) (ih hs hes.2 (List.nodup_cons.mp distinct).2)
    exact moves
  | @frozen e es s _ _ _ v version frozen rest ih =>
    rw [List.forall_mem_cons] at hes
    have unchanged := distinct_versionsOf fun f (found : s.entry? e.path = some f) => (hs.entries.entry? found).distinct
    have skips : Move e.path s s [{ SyncResult.forEntry e.path with skippedFrozen := [name] }] :=
      ⟨fun _ _ => rfl, .inr ⟨_, rfl, rfl, SyncResult.accounts_of_same rfl unchanged⟩⟩
    have moves := Moves.cons skips (ih hs hes.2 (List.nodup_cons.mp distinct).2)
    exact moves
  | @removed e es s _ _ _ v version mutable rest ih =>
    rw [List.forall_mem_cons] at hes
    rw [List.map_cons, List.nodup_cons] at distinct
    have he : (e.remove name).WellFormed := Entry.invariant_wellFormed.removed name (hs.entries.entry? hes.1)
    have saved : ∀ q, Store.entry? (s.save (e.remove name)) q = if e.path = q then some (e.remove name) else s.entry? q :=
      hs.entry?_save he
    have cuts : Move e.path s (s.save (e.remove name)) [{ SyncResult.forEntry e.path with removed := [name] }] := by
      refine ⟨fun q other => by rw [saved, if_neg other.symm], .inr ⟨_, rfl, rfl, ?_⟩⟩
      rw [saved, if_pos rfl, hes.1]
      exact accounts_remove (hs.entries.entry? hes.1).distinct version
    have others : ∀ f ∈ es, Store.entry? (s.save (e.remove name)) f.path = some f := fun f hf => by
      rw [saved, if_neg fun (same : e.path = f.path) => distinct.1 (same ▸ List.mem_map_of_mem hf), hes.2 f hf]
    have moves := Moves.cons cuts (ih (hs.save he) others distinct.2)
    exact moves
  | failed => exact .done _

/-- The addresses that a call is about. -/
def Call.Concerns (call : Call) (q : EntryPath) : Prop :=
  ∃ p, repositoryPath call.repository = .ok p ∧ q.sameRepository p = true

namespace Reconcile

/-- What a call does is told move by move, at addresses of its repository. -/
theorem moves_run {s : Store} (hs : s.WellFormed) (c : Context) (call : Call) :
    ∃ ps out, Moves ps s (run c s call).store out ∧ ps.Nodup ∧ (∀ p ∈ ps, p.IsPlain ∧ call.Concerns p) ∧
      ∃ r, (run c s call).results = closed r out := by
  cases ends_run c s call with
  | refused _ store results =>
    rw [store]
    exact ⟨[], [], .done s, List.nodup_nil, fun p hp => absurd hp List.not_mem_nil, _, results⟩
  | acted plan deed results =>
    have planned := planned plan
    cases deed with
    | jobs effects =>
      have plain := planned.plain_jobs
      obtain ⟨p, repository, paths⟩ := planned.path_of_jobs
      refine ⟨_, _, effects.moves hs plain, planned.distinct_jobs, fun q hq => ?_, _, results⟩
      obtain ⟨j, hj, rfl⟩ := List.mem_map.mp hq
      exact ⟨plain j hj, p, repository, EntryPath.sameRepository_iff.mpr (paths j hj)⟩
    | deletion deletion =>
      obtain ⟨hes, distinct⟩ := planned.entries_of_deletion hs
      refine ⟨_, _, deletion.moves hs hes distinct, distinct, fun q hq => ?_, _, results⟩
      obtain ⟨e, he, rfl⟩ := List.mem_map.mp hq
      refine ⟨(hs.entries.entry? (hes e he)).plain, ?_⟩
      cases planned with
      | delete _ _ repository => exact ⟨_, repository, (List.mem_filter.mp he).2⟩

theorem entry_of_mem_closed {r : Except SyncError Unit} {out : List SyncResult} {x : SyncResult} (h : x ∈ closed r out)
    {name : String} (named : x.entry = some name) : x ∈ out :=
  (mem_closed h).resolve_right fun ⟨unnamed, _⟩ => nomatch unnamed.symm.trans named

theorem mem_closed_of_mem (r : Except SyncError Unit) {out : List SyncResult} {x : SyncResult} (h : x ∈ out) :
    x ∈ closed r out := by
  unfold closed
  split
  · split
    · exact List.mem_append_left _ h
    · exact h
  · rwa [if_neg (by simpa using List.ne_nil_of_mem h)]

theorem filterMap_entry_closed (r : Except SyncError Unit) (out : List SyncResult) :
    (closed r out).filterMap SyncResult.entry = out.filterMap SyncResult.entry := by
  unfold closed
  split
  · split
    · rw [List.filterMap_append]
      exact List.append_nil _
    · rfl
  · split
    · rename_i none_told
      rw [List.isEmpty_iff.mp none_told]
      rfl
    · rfl

/-- In a catalog that can come about, the results of a call account for what the call does to the catalog, however it
ends. No entry is named twice; a result that names an entry of the repository tells which of its versions are new or
gone, and names each that was replaced; entries that no result names keep their versions. Entries of other repositories
and the accounts stay as they are. -/
theorem results_account_for_changes {s : Store} (h : s.Reachable) (c : Context) (call : Call) :
    ((run c s call).results.filterMap SyncResult.entry).Nodup ∧
      (∀ q, call.Concerns q →
        (∀ x ∈ (run c s call).results, x.entry = some q.toText →
          x.Accounts (versionsOf (s.entry? q)) (versionsOf ((run c s call).store.entry? q))) ∧
        ((∀ x ∈ (run c s call).results, x.entry ≠ some q.toText) →
          versionsOf ((run c s call).store.entry? q) = versionsOf (s.entry? q))) ∧
      (∀ q, ¬ call.Concerns q → (run c s call).store.entry? q = s.entry? q) ∧
      (run c s call).store.users = s.users := by
  have hs := h.wellFormed
  obtain ⟨ps, out, moves, distinct, concerned, r, results⟩ := moves_run hs c call
  have plain := fun p hp => (concerned p hp).1
  rw [results]
  refine ⟨?_, fun q ⟨p, repository, same⟩ => ?_, fun q unconcerned => ?_, ?_⟩
  · have texts : (ps.map EntryPath.toText).Nodup := List.pairwise_map.mpr
      (distinct.imp_of_mem fun hp hq ne same => ne (EntryPath.toText_inj (plain _ hp) (plain _ hq) same))
    rw [filterMap_entry_closed]
    exact moves.sublist.nodup texts
  · obtain ⟨name, rfl⟩ := EntryPath.sameRepository_iff.mp same
    obtain ⟨accounts, untold⟩ := moves.tells plain distinct ((plain_of_repositoryPath repository).withName name)
    exact ⟨fun x hx named => accounts x (entry_of_mem_closed hx named) named, fun none_tells =>
      untold fun x hx named => none_tells x (mem_closed_of_mem r hx) named⟩
  · exact moves.elsewhere fun hq => unconcerned (concerned q hq).2
  · exact (Entry.invariant_wellFormed.run hs.entries call).users

/-- The result of a refresh accounts for a tag that is new and a branch that is gone. -/
theorem sample_result_accounts :
    let c := Sample.context [⟨"v1", .tag, "c1", none⟩]
    ∃ x ∈ (run c Sample.refreshed.1 Sample.refresh).results, x.entry = some Sample.path.toText ∧ x.added = ["v1"] ∧
      x.removed = ["main"] ∧ x.Accounts (versionsOf (Sample.refreshed.val.entry? Sample.path))
        (versionsOf ((run c Sample.refreshed.1 Sample.refresh).store.entry? Sample.path)) := by
  intro c
  have told : (run c Sample.refreshed.1 Sample.refresh).results.any (fun x =>
      x.entry == some Sample.path.toText && x.added == ["v1"] && x.removed == ["main"]) = true := by decide +kernel
  obtain ⟨x, hx, same⟩ := List.any_eq_true.mp told
  simp only [Bool.and_eq_true, beq_iff_eq] at same
  obtain ⟨⟨named, added⟩, removed⟩ := same
  have concerns : Sample.refresh.Concerns Sample.path := ⟨Sample.path, rfl, by decide⟩
  exact ⟨x, hx, named, added, removed,
    ((results_account_for_changes Sample.refreshed.2 c Sample.refresh).2.1 Sample.path concerns).1 x hx named⟩

end Reconcile

end WorkflowCatalog
