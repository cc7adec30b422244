import WorkflowCatalog.Proofs.Entries

/-!
# Frozen versions

A call leaves the frozen versions of an entry exactly as they are, and freezes or unfreezes none. An entry never
goes away, and keeps its kind, its language and its default path. So a version that was frozen once is found
unchanged in every later catalog.
-/
namespace WorkflowCatalog

open Sync

namespace Entry

/-- The frozen versions of both entries are the same. -/
def SameFrozen (e f : Entry) : Prop := ∀ n v, v.frozen = true → (e.version? n = some v ↔ f.version? n = some v)

theorem SameFrozen.refl (e : Entry) : e.SameFrozen e := fun _ _ _ => Iff.rfl

theorem SameFrozen.trans {e f g : Entry} (h : e.SameFrozen f) (k : f.SameFrozen g) : e.SameFrozen g :=
  fun n v hv => (h n v hv).trans (k n v hv)

/-- A version that both entries have is frozen in both or in neither. -/
theorem SameFrozen.frozen_eq {e f : Entry} (h : e.SameFrozen f) {n : String} {v w : Version}
    (hv : e.version? n = some v) (hw : f.version? n = some w) : v.frozen = w.frozen := by
  cases hvf : v.frozen with
  | true =>
    rw [h n v hvf, hw, Option.some.injEq] at hv
    rw [hv, hvf]
  | false =>
    cases hwf : w.frozen with
    | false => rfl
    | true =>
      rw [← h n w hwf, hv, Option.some.injEq] at hw
      rw [← hw, hvf] at hwf
      contradiction

theorem sameFrozen_remove {e : Entry} (distinct : e.HasDistinctNames) {n : String} {v : Version}
    (version : e.version? n = some v) (mutable : v.frozen = false) : (e.remove n).SameFrozen e := by
  intro m w hw
  rw [version?_remove distinct]
  split
  · rename_i same
    subst same
    refine iff_of_false (fun h => nomatch h) fun found => ?_
    rw [version, Option.some.injEq] at found
    rw [found, hw] at mutable
    contradiction
  · exact Iff.rfl

/-- A later state of an entry: it has the same core, and the versions that were frozen as they were. -/
structure Outlasts (f e : Entry) : Prop where
  core : f.SameCore e
  frozen : ∀ n v, v.frozen = true → e.version? n = some v → f.version? n = some v

theorem Outlasts.refl (e : Entry) : e.Outlasts e := ⟨.refl e, fun _ _ _ h => h⟩

theorem Outlasts.trans {e f g : Entry} (h : g.Outlasts f) (k : f.Outlasts e) : g.Outlasts e :=
  ⟨h.core.trans k.core, fun n v hv found => h.frozen n v hv (k.frozen n v hv found)⟩

/-- A freeze changes no version that is frozen already. -/
theorem version?_freeze_of_frozen {e : Entry} {name n : String} {v w : Version} (version : e.version? name = some v)
    (found : e.version? n = some w) (frozen : w.frozen = true) : (e.freeze v).version? n = some w := by
  rw [freeze, version?_upsert]
  split
  · rename_i same
    have hname : v.name = name := by simpa using List.find?_some version
    have hn : n = name := same.symm.trans hname
    rw [hn, version, Option.some.injEq] at found
    rw [found, ← frozen]
  · exact found

end Entry

/-- A version that was rebuilt is not frozen. -/
theorem Sync.frozen_of_rebuilt? {c : Context} {sources : List VersionSource} {e : Entry} {n : String} {v : Version}
    (h : rebuilt? c sources e n = some (.ok v)) : v.frozen = false := by
  obtain ⟨s, -, -, answer⟩ := source_of_rebuilt? h
  obtain ⟨files, checks, built⟩ := Build.isBuilt_of_answer answer
  rw [built.eq]
  exact built.mutable

/-- The changes that a comparison asks for leave the frozen versions as they are, whether all are made or only
the first of them. -/
theorem Sync.sameFrozen_progress {c : Context} {sources : List VersionSource} {w : Work} {listing : RemoteListing}
    {mode : DiffMode} {forced : List String} {d : VersionDiff} {done : List Change}
    (distinct : w.entry.HasDistinctNames) (compared : diff w.entry.versions listing mode forced = .ok d)
    (made : done <+: d.changes) : (progress c sources w done).entry.SameFrozen w.entry := by
  intro n v hv
  by_cases hn : ∃ change ∈ done, change.name = n
  · obtain ⟨change, hc, rfl⟩ := hn
    have names := VersionDiff.nodup_of_prefix compared distinct made
    have unfrozen : w.entry.version? change.name ≠ some v := fun found => by
      obtain ⟨hv', name⟩ := (Entry.version?_eq_some_iff distinct).mp found
      exact VersionDiff.name_ne_of_frozen compared distinct hv' hv (made.subset hc) name.symm
    rw [version?_progress_of_mem distinct names hc]
    refine iff_of_false (fun h => ?_) unfrozen
    cases change with
    | remove name => exact nomatch h
    | build isNew name =>
      rcases of_after_build h with rebuilt | kept
      · rw [frozen_of_rebuilt? rebuilt] at hv
        contradiction
      · exact unfrozen kept
  · rw [version?_progress_of_not_mem distinct fun change hc name => hn ⟨change, hc, name⟩]

/-- A call keeps every entry, its core and its frozen versions. -/
theorem Reconcile.sameFrozen_run {s : Store} (hs : s.WellFormed) (c : Context) (call : Call) {p : EntryPath} {e : Entry}
    (found : s.entry? p = some e) :
    ∃ f, (run c s call).store.entry? p = some f ∧ f.SameCore e ∧ f.SameFrozen e := by
  have distinct := (hs.entries.entry? found).distinct
  have turn := turn_run hs c call p
  generalize (run c s call).store.entry? p = new at turn
  cases turn with
  | same => exact ⟨e, found, .refl e, .refl e⟩
  | worked planned job path effect =>
    rw [found] at effect ⊢
    obtain rfl | ⟨before, isNew, d, done, begins, made, rfl⟩ := effect.last_eq
    · exact ⟨e, rfl, .refl e, .refl e⟩
    · obtain rfl := begins.eq
      refine ⟨_, rfl, (core_progress c _ _ _).trans (sameCore_withSettings before _), ?_⟩
      refine (sameFrozen_progress (Job.distinct_firstWork distinct) begins.compared made).trans fun n v _ => ?_
      rw [Job.version?_firstWork]
  | cut planned entry _ version mutable =>
    rw [found, Option.some.injEq] at entry
    subst entry
    exact ⟨_, rfl, ⟨rfl, rfl, rfl, rfl, rfl⟩, Entry.sameFrozen_remove distinct version mutable⟩

namespace Store

/-- One step keeps every entry, its core, and each of its versions that is frozen. -/
theorem outlasts_step {s s' : Store} (hs : s.WellFormed) (step : s.Step s') {p : EntryPath} {e : Entry}
    (found : s.entry? p = some e) : ∃ f, s'.entry? p = some f ∧ f.Outlasts e := by
  cases step with
  | register now username =>
    refine ⟨e, ?_, .refl e⟩
    rw [Store.entry?, entries_addUser]
    exact found
  | @freeze q name g v entry version =>
    have path := (hs.entry?_eq_some_iff.mp entry).2
    have he := Entry.invariant_wellFormed.frozen (hs.entries.entry? entry) version
    rw [hs.replace_eq_save he (path.symm ▸ entry), hs.entry?_save he]
    split
    · rename_i same
      have hp : p = q := same.symm.trans path
      rw [hp, entry, Option.some.injEq] at found
      subst found
      exact ⟨_, rfl, ⟨rfl, rfl, rfl, rfl, rfl⟩, fun n w hw h => Entry.version?_freeze_of_frozen version h hw⟩
    · exact ⟨e, found, .refl e⟩
  | call c call =>
    obtain ⟨f, hf, core, same⟩ := Reconcile.sameFrozen_run hs c call found
    exact ⟨f, hf, core, fun n v hv => (same n v hv).mpr⟩

theorem outlasts_steps {s s' : Store} (hs : s.WellFormed) (steps : s.Steps s') {p : EntryPath} {e : Entry}
    (found : s.entry? p = some e) : ∃ f, s'.entry? p = some f ∧ f.Outlasts e := by
  have both : s'.WellFormed ∧ ∃ f, s'.entry? p = some f ∧ f.Outlasts e := by
    induction steps with
    | refl => exact ⟨hs, e, found, .refl e⟩
    | tail _ step ih =>
      obtain ⟨ht, f, hf, kept⟩ := ih
      obtain ⟨g, hg, later⟩ := outlasts_step ht step hf
      exact ⟨ht.step step, g, hg, later.trans kept⟩
  exact both.2

/-- In a catalog that can come about, every entry is there to stay: in all later catalogs it has the same kind,
language and default path, and each frozen version of it is the same record at the same path. A single call moreover
freezes or unfreezes no version. -/
theorem frozen_survives {s : Store} (h : s.Reachable) :
    (∀ s', s.Steps s' → ∀ e ∈ s.entries, ∃ f, s'.entry? e.path = some f ∧ f.kind = e.kind ∧ f.language = e.language ∧
      f.defaultDescriptorPath = e.defaultDescriptorPath ∧
      ∀ v ∈ e.versions, v.frozen = true → f.version? v.name = some v ∧
        v.effectivePath f.defaultDescriptorPath = v.effectivePath e.defaultDescriptorPath) ∧
    ∀ c call, ∀ e ∈ s.entries, ∀ f, (Reconcile.run c s call).store.entry? e.path = some f →
      ∀ v ∈ e.versions, ∀ w ∈ f.versions, w.name = v.name → w.frozen = v.frozen := by
  have hs := h.wellFormed
  constructor
  · intro s' steps e he
    obtain ⟨f, hf, kept⟩ := outlasts_steps hs steps (hs.entry?_eq_some_iff.mpr ⟨he, rfl⟩)
    have core := kept.core
    refine ⟨f, hf, core.kind, core.language, core.defaultDescriptorPath, fun v hv frozen => ⟨?_, ?_⟩⟩
    · exact kept.frozen _ v frozen ((Entry.version?_eq_some_iff (hs.entries e he).distinct).mpr ⟨hv, rfl⟩)
    · rw [core.defaultDescriptorPath]
  · intro c call e he f hf v hv w hw name
    obtain ⟨g, hg, -, same⟩ := Reconcile.sameFrozen_run hs c call (hs.entry?_eq_some_iff.mpr ⟨he, rfl⟩)
    rw [hf, Option.some.injEq] at hg
    subst hg
    have hw' := (Entry.version?_eq_some_iff ((hs.run c call).entries.entry? hf).distinct).mpr ⟨hw, name⟩
    have hv' := (Entry.version?_eq_some_iff (hs.entries e he).distinct).mpr ⟨hv, rfl⟩
    exact same.frozen_eq hw' hv'

/-- The frozen version of the small catalog outlasts a refresh that finds the repository empty. -/
theorem sample_version_survives :
    ∃ e ∈ Sample.frozen.1.entries, ∃ v ∈ e.versions, v.frozen = true ∧
      ∃ f, (Reconcile.run (Sample.context []) Sample.frozen.1 Sample.refresh).store.entry? e.path = some f ∧
        f.version? v.name = some v := by
  have some_frozen : Sample.frozen.1.entries.any (fun e => e.versions.any (·.frozen)) = true := by decide +kernel
  obtain ⟨e, he, some_version⟩ := List.any_eq_true.mp some_frozen
  obtain ⟨v, hv, hf⟩ := List.any_eq_true.mp some_version
  obtain ⟨f, found, -, -, -, kept⟩ :=
    (frozen_survives Sample.frozen.2).1 _ (.single (.call (Sample.context []) Sample.refresh)) e he
  exact ⟨e, he, v, hv, hf, f, found, (kept v hv hf).1⟩

end Store

end WorkflowCatalog
