import WorkflowCatalog.Proofs.Changes
import WorkflowCatalog.Proofs.Comparison

/-!
# The versions of an entry after several changes

Building a version looks at no other version of the entry. So where every change is about a version of its
own, what each comes to can be told from the entry as it was before all of them: `version?_progress` says
which version a name has afterwards, and the other lemmas which names the result tells.
-/
namespace WorkflowCatalog

open Fetch

/-- Of an entry only what no call changes counts for the build of a version, and the version of that name. -/
theorem Build.version_congr {c : Context} {e f : Entry} {s : VersionSource} (h : e.SameCore f)
    (hv : e.version? s.remote.name = f.version? s.remote.name) : version c e s = version c f s := by
  have ho : outline e s = outline f s := by
    simp only [outline, hv, h.language, h.defaultDescriptorPath]
  have hc : collect c e (outline f s) s = collect c f (outline f s) s := by
    simp only [collect, gather, h.language, h.path, h.defaultDescriptorPath]
  simp only [version, revise, ho, hc, h.language, h.path]

namespace Sync

variable {c : Context} {sources : List VersionSource}

/-- What the build of the version of that name ends with, if a source has it. -/
def rebuilt? (c : Context) (sources : List VersionSource) (e : Entry) (name : String) :
    Option (Except SyncError Version) :=
  (sources.find? fun s => s.remote.name == name).map fun s => (Build.version c e s).answer

theorem rebuilt?_congr {e f : Entry} {name : String} (h : e.SameCore f) (hv : e.version? name = f.version? name) :
    rebuilt? c sources e name = rebuilt? c sources f name := by
  unfold rebuilt?
  cases hs : sources.find? fun s => s.remote.name == name with
  | none => rfl
  | some s =>
    have hn : s.remote.name = name := by simpa using List.find?_some hs
    rw [Option.map_some, Option.map_some, Build.version_congr h (hn.symm ▸ hv)]

/-- A version that was rebuilt was rebuilt from a source of its name. -/
theorem source_of_rebuilt? {e : Entry} {name : String} {v : Version} (h : rebuilt? c sources e name = some (.ok v)) :
    ∃ s, sources.find? (fun s => s.remote.name == name) = some s ∧ s.remote.name = name ∧
      (Build.version c e s).answer = .ok v := by
  simp only [rebuilt?, Option.map_eq_some_iff] at h
  obtain ⟨s, hs, hv⟩ := h
  exact ⟨s, hs, by simpa using List.find?_some hs, hv⟩

theorem name_of_rebuilt? {e : Entry} {name : String} {v : Version} (h : rebuilt? c sources e name = some (.ok v)) :
    v.name = name := by
  obtain ⟨s, -, hn, hv⟩ := source_of_rebuilt? h
  exact (Build.name_of_answer hv).trans hn

theorem advance_build (w : Work) (isNew : Bool) (name : String) :
    advance c sources w (.build isNew name) =
      match rebuilt? c sources w.entry name with
      | none => w
      | some (.ok v) => ⟨w.entry.upsert v, false, noted w.result isNew v.name⟩
      | some (.error e) => { w with result := w.result.fail (name ++ ": " ++ e.message) } := by
  unfold rebuilt?
  cases hs : sources.find? fun s => s.remote.name == name with
  | none => rw [advance_unlisted hs, Option.map_none]
  | some s =>
    cases hv : (Build.version c w.entry s).answer with
    | ok v => simp only [advance_built hs hv, Option.map_some, hv]
    | error e => simp only [advance_failed hs hv, Option.map_some, hv]

/-- The version that the name of a change has once the change is made. -/
def after (c : Context) (sources : List VersionSource) (e : Entry) : Change → Option Version
  | .build _ name => ((rebuilt? c sources e name).bind Except.toOption).or (e.version? name)
  | .remove _ => none

theorem after_build (e : Entry) (isNew : Bool) (name : String) :
    after c sources e (.build isNew name) = ((rebuilt? c sources e name).bind Except.toOption).or (e.version? name) :=
  rfl

/-- A version that is there after a build was built, or was there before. -/
theorem of_after_build {e : Entry} {isNew : Bool} {name : String} {v : Version}
    (h : after c sources e (.build isNew name) = some v) :
    rebuilt? c sources e name = some (.ok v) ∨ e.version? name = some v := by
  rw [after_build, Option.or_eq_some_iff] at h
  refine h.imp (fun built => ?_) And.right
  obtain ⟨r, hr, ok⟩ := Option.bind_eq_some_iff.mp built
  cases r with
  | error _ => exact nomatch ok
  | ok _ => exact Option.some.inj ok ▸ hr

theorem after_congr {e f : Entry} {change : Change} (h : e.SameCore f)
    (hv : e.version? change.name = f.version? change.name) : after c sources e change = after c sources f change := by
  cases change with
  | build isNew name =>
    rw [Change.name_build] at hv
    rw [after_build, after_build, rebuilt?_congr h hv, hv]
  | remove name => rfl

theorem core_advance (w : Work) (change : Change) : (advance c sources w change).entry.SameCore w.entry :=
  core_advanced (advanced w change)

theorem distinct_advanced {w w' : Work} {change : Change} (step : Advanced c sources w change w')
    (h : w.entry.HasDistinctNames) : w'.entry.HasDistinctNames := by
  cases step with
  | skipped _ => exact h
  | built _ _ => exact h.upsert _
  | removed => exact h.remove _

theorem distinct_advance {w : Work} (h : w.entry.HasDistinctNames) (change : Change) :
    (advance c sources w change).entry.HasDistinctNames :=
  distinct_advanced (advanced w change) h

theorem version?_advance {w : Work} (h : w.entry.HasDistinctNames) (change : Change) (n : String) :
    (advance c sources w change).entry.version? n =
      if change.name = n then after c sources w.entry change else w.entry.version? n := by
  cases change with
  | remove name => exact Entry.version?_remove h name n
  | build isNew name =>
    rw [advance_build, Change.name_build, after_build]
    cases hb : rebuilt? c sources w.entry name with
    | none => by_cases hn : name = n <;> simp [hn]
    | some r =>
      cases r with
      | error e => by_cases hn : name = n <;> simp [hn, Except.toOption]
      | ok v =>
        rw [Entry.version?_upsert, name_of_rebuilt? hb]
        rfl

theorem distinct_progress {w : Work} (h : w.entry.HasDistinctNames) (done : List Change) :
    (progress c sources w done).entry.HasDistinctNames := by
  induction done generalizing w with
  | nil => exact h
  | cons change done ih => exact ih (distinct_advance h change)

/-- A name that no change is about keeps its version. -/
theorem version?_progress_of_not_mem {w : Work} (h : w.entry.HasDistinctNames) {done : List Change} {n : String}
    (hn : ∀ change ∈ done, change.name ≠ n) : (progress c sources w done).entry.version? n = w.entry.version? n := by
  induction done generalizing w with
  | nil => rfl
  | cons change done ih =>
    rw [List.forall_mem_cons] at hn
    rw [progress_cons, ih (distinct_advance h change) hn.2, version?_advance h, if_neg hn.1]

/-- A name that one change is about has the version that the change makes of the entry before all of them. -/
theorem version?_progress_of_mem {w : Work} (h : w.entry.HasDistinctNames) {done : List Change}
    (hd : (done.map Change.name).Nodup) {change : Change} (hc : change ∈ done) :
    (progress c sources w done).entry.version? change.name = after c sources w.entry change := by
  induction done generalizing w with
  | nil => simp at hc
  | cons first done ih =>
    rw [List.map_cons, List.nodup_cons] at hd
    have others : ∀ ch ∈ done, ch.name ≠ first.name := fun ch hch e => hd.1 (e ▸ List.mem_map_of_mem hch)
    rw [progress_cons]
    rcases List.mem_cons.mp hc with rfl | hc
    · rw [version?_progress_of_not_mem (distinct_advance h change) others, version?_advance h, if_pos rfl]
    · rw [ih (distinct_advance h first) hd.2 hc]
      refine after_congr (core_advance w first) ?_
      rw [version?_advance h, if_neg (others change hc).symm]

theorem rebuilt?_advance {w : Work} (h : w.entry.HasDistinctNames) {change : Change} {n : String}
    (hn : change.name ≠ n) :
    rebuilt? c sources (advance c sources w change).entry n = rebuilt? c sources w.entry n :=
  rebuilt?_congr (core_advance w change) (by rw [version?_advance h, if_neg hn])

/-- The names told as added, or those told as updated. -/
def told (isNew : Bool) (r : SyncResult) : List String := if isNew then r.added else r.updated

theorem told_noted (isNew new : Bool) (r : SyncResult) (name : String) :
    told isNew (noted r new name) = if new = isNew then told isNew r ++ [name] else told isNew r := by
  cases isNew <;> cases new <;> rfl

theorem told_eq {r r' : SyncResult} (h : r.SameChanges r') (isNew : Bool) : told isNew r = told isNew r' := by
  cases isNew
  · exact h.updated
  · exact h.added

theorem entry_progress (w : Work) (done : List Change) :
    (progress c sources w done).result.entry = w.result.entry := by
  refine progress_induction (P := fun x => x.result.entry = w.result.entry) (fun x change y _ step h => ?_) rfl
  cases step with
  | skipped same => exact same.entry.trans h
  | @built isNew _ _ _ _ _ => cases isNew <;> exact h
  | removed => exact h

theorem mem_told_advance {w : Work} {change : Change} {isNew : Bool} {n : String} :
    n ∈ told isNew (advance c sources w change).result ↔
      n ∈ told isNew w.result ∨ change = .build isNew n ∧ ∃ v, rebuilt? c sources w.entry n = some (.ok v) := by
  cases change with
  | remove name => cases isNew <;> simp [advance, told]
  | build new name =>
    rw [advance_build]
    cases hb : rebuilt? c sources w.entry name with
    | none => grind
    | some r =>
      cases r with
      | error e => cases isNew <;> simp [told, SyncResult.fail] <;> grind
      | ok v =>
        simp only [told_noted, name_of_rebuilt? hb, Change.build.injEq]
        by_cases hn : new = isNew <;> grind

/-- The versions told as added, or updated, are those that were rebuilt. -/
theorem mem_told_progress {w : Work} (h : w.entry.HasDistinctNames) {done : List Change}
    (hd : (done.map Change.name).Nodup) {isNew : Bool} {n : String} :
    n ∈ told isNew (progress c sources w done).result ↔
      n ∈ told isNew w.result ∨ .build isNew n ∈ done ∧ ∃ v, rebuilt? c sources w.entry n = some (.ok v) := by
  induction done generalizing w with
  | nil => simp
  | cons change done ih =>
    rw [List.map_cons, List.nodup_cons] at hd
    have others : ∀ {n}, .build isNew n ∈ done → change.name ≠ n := fun hn e =>
      hd.1 (List.mem_map.mpr ⟨_, hn, e.symm⟩)
    rw [progress_cons, ih (distinct_advance h change) hd.2, mem_told_advance, List.mem_cons, or_assoc]
    refine or_congr_right ?_
    constructor
    · rintro (⟨rfl, hb⟩ | ⟨hn, hb⟩)
      · exact ⟨.inl rfl, hb⟩
      · exact ⟨.inr hn, by rwa [rebuilt?_advance h (others hn)] at hb⟩
    · rintro ⟨rfl | hn, hb⟩
      · exact .inl ⟨rfl, hb⟩
      · exact .inr ⟨hn, by rwa [rebuilt?_advance h (others hn)]⟩

theorem success_advance {w : Work} {change : Change} :
    (advance c sources w change).result.success = true ↔
      w.result.success = true ∧
        ∀ isNew n e, change = .build isNew n → rebuilt? c sources w.entry n ≠ some (.error e) := by
  cases change with
  | remove name => simp [advance]
  | build new name =>
    rw [advance_build]
    cases hb : rebuilt? c sources w.entry name with
    | none => grind
    | some r =>
      cases r with
      | error e => exact iff_of_false Bool.false_ne_true fun all => all.2 new name e rfl hb
      | ok v => cases new <;> simp only [noted] <;> grind

/-- The result tells of success as long as no build fails. -/
theorem success_progress {w : Work} (h : w.entry.HasDistinctNames) {done : List Change}
    (hd : (done.map Change.name).Nodup) :
    (progress c sources w done).result.success = true ↔
      w.result.success = true ∧
        ∀ isNew n e, .build isNew n ∈ done → rebuilt? c sources w.entry n ≠ some (.error e) := by
  induction done generalizing w with
  | nil => simp
  | cons change done ih =>
    rw [List.map_cons, List.nodup_cons] at hd
    have others : ∀ {isNew n}, .build isNew n ∈ done → change.name ≠ n := fun hn e =>
      hd.1 (List.mem_map.mpr ⟨_, hn, e.symm⟩)
    rw [progress_cons, ih (distinct_advance h change) hd.2, success_advance, and_assoc]
    refine and_congr_right fun _ => ?_
    constructor
    · rintro ⟨first, rest⟩ isNew n e hn
      rcases List.mem_cons.mp hn with rfl | hn
      · exact first _ _ _ rfl
      · rw [← rebuilt?_advance h (others hn)]
        exact rest isNew n e hn
    · intro all
      refine ⟨fun isNew n e hc => all isNew n e (hc ▸ List.mem_cons_self), fun isNew n e hn => ?_⟩
      rw [rebuilt?_advance h (others hn)]
      exact all isNew n e (List.mem_cons_of_mem _ hn)

end Sync

end WorkflowCatalog
