import WorkflowCatalog.Proofs.Interruption
import WorkflowCatalog.Proofs.Rebuilds

/-!
# Jobs that are done again

A job that is not disturbed and is done a second time, while the remote answers as before, saves nothing that is not
there. What it still finds to be changed is what it could not build, which fails again, or what it was told to build
in any case, which comes out the same. A strict job that gave up the first time gives up at the same version.
-/
namespace WorkflowCatalog

open Sync

namespace Sync

variable {c : Context} {sources : List VersionSource} {e f : Entry} {t : Timestamp}

/-! ## The entry after several changes -/

theorem core_reached (e : Entry) (done : List Change) : (reached c sources e done).SameCore e := by
  rw [← entry_eq_reached ⟨e, false, .nothing⟩]
  exact core_progress c sources ⟨e, false, .nothing⟩ done

theorem distinct_reached (h : e.HasDistinctNames) (done : List Change) : (reached c sources e done).HasDistinctNames := by
  rw [← entry_eq_reached ⟨e, false, .nothing⟩]
  exact distinct_progress h done

theorem version?_reached_of_mem (h : e.HasDistinctNames) {done : List Change} (hd : (done.map Change.name).Nodup)
    {change : Change} (hc : change ∈ done) :
    (reached c sources e done).version? change.name = after c sources e change := by
  rw [← entry_eq_reached ⟨e, false, .nothing⟩]
  exact version?_progress_of_mem h hd hc

theorem version?_reached_of_not_mem (h : e.HasDistinctNames) {done : List Change} {n : String}
    (hn : n ∉ done.map Change.name) : (reached c sources e done).version? n = e.version? n := by
  rw [← entry_eq_reached ⟨e, false, .nothing⟩]
  exact version?_progress_of_not_mem h fun change hc named => hn (named ▸ List.mem_map_of_mem hc)

/-- Changes concern the versions of an entry and nothing else. -/
theorem reached_eq (e : Entry) (done : List Change) :
    reached c sources e done = { e with versions := (reached c sources e done).versions } := by
  induction done generalizing e with
  | nil => rfl
  | cons change done ih =>
    change reached c sources ((saved? c sources e change).getD e) done = { e with
      versions := (reached c sources ((saved? c sources e change).getD e) done).versions }
    rw [ih]
    cases hs : saved? c sources e change with
    | none => rfl
    | some f =>
      cases change with
      | remove name =>
        obtain rfl := Option.some.inj hs
        rfl
      | build isNew name =>
        obtain ⟨v, -, rfl⟩ := Option.map_eq_some_iff.mp hs
        rfl

/-- The settings of the first source are not overwritten by changes. -/
theorem withSettings_reached (e : Entry) (done : List Change) :
    withSettings (reached c sources (withSettings e sources) done) sources =
      reached c sources (withSettings e sources) done := by
  cases sources with
  | nil => rfl
  | cons s rest =>
    rw [reached_eq]
    simp only [withSettings, Entry.withSettings]
    congr 1
    · cases s.declaration.publish <;> rfl
    · split <;> rfl

theorem saved?_eq_none_of_trail {done : List Change} (h : trail c sources e done = []) :
    ∀ change ∈ done, saved? c sources e change = none := by
  induction done with
  | nil => exact fun _ hc => absurd hc List.not_mem_nil
  | cons change done ih =>
    obtain ⟨first, others⟩ := List.append_eq_nil_iff.mp h
    have nothing : saved? c sources e change = none := by simpa using first
    rw [nothing] at others
    exact List.forall_mem_cons.mpr ⟨nothing, ih others⟩

/-! ## Builds that are made again -/

/-- Once a build has been made, it comes to the same at any time. -/
theorem rebuilt?_again {isNew : Bool} {n : String} (core : f.SameCore e)
    (made : f.version? n = after c sources e (.build isNew n)) :
    rebuilt? (c.withClock t) sources f n = rebuilt? c sources e n := by
  rw [after_build, rebuilt?] at made
  unfold rebuilt?
  cases hs : sources.find? fun s => s.remote.name == n with
  | none => rfl
  | some s =>
    have named : s.remote.name = n := by simpa using List.find?_some hs
    subst named
    rw [hs] at made
    change f.version? s.remote.name = (Build.version c e s).answer.toOption.or (e.version? s.remote.name) at made
    rw [Option.map_some, Option.map_some, Option.some.injEq]
    cases answer : (Build.version c e s).answer with
    | ok v =>
      rw [answer] at made
      exact Build.answer_again answer core made
    | error err =>
      rw [answer] at made
      rw [Build.version_congr core made]
      exact Build.answer_error_withClock answer

/-- A change that has ended a call ends it again. -/
theorem Halts.again {change : Change} (h : Halts c sources e change) (t : Timestamp) :
    Halts (c.withClock t) sources e change := by
  obtain ⟨strict, isNew, n, err, rfl, failed⟩ := h
  have unmade : e.version? n = after c sources e (.build isNew n) := by
    rw [after_build, failed]
    rfl
  exact ⟨strict, isNew, n, err, rfl, (rebuilt?_again (.refl e) unmade).trans failed⟩

/-- No run gets past a change that ends it. -/
theorem prefix_of_passes {passed before after : List Change} {change : Change} (passes : Passes c sources e passed)
    (halts : Halts c sources (reached c sources e before) change) (made : passed <+: before ++ change :: after) :
    passed <+: before := by
  obtain short | ⟨more, rfl⟩ := List.prefix_or_prefix_of_prefix made (List.prefix_append before (change :: after))
  · exact short
  · cases more with
    | nil => simp
    | cons first more =>
      obtain ⟨rfl, -⟩ := List.cons_prefix_cons.mp ((List.prefix_append_right_inj before).mp made)
      exact absurd halts (passes_append passes).2.1

/-- A build that was made is made again without any change. -/
theorem saved?_again (he : e.HasDistinctNames) {done : List Change} (hd : (done.map Change.name).Nodup) {old new : Bool}
    {n : String} (made : .build old n ∈ done)
    (saved : saved? (c.withClock t) sources (reached c sources e done) (.build new n) = some f) :
    f = reached c sources e done ∧ trail c sources e done ≠ [] := by
  have version : (reached c sources e done).version? n = after c sources e (.build old n) :=
    version?_reached_of_mem he hd made
  have rebuilt := rebuilt?_again (t := t) (core_reached e done) version
  rw [saved?, rebuilt] at saved
  obtain ⟨v, ok, rfl⟩ := Option.map_eq_some_iff.mp saved
  obtain ⟨r, hr, hv⟩ := Option.bind_eq_some_iff.mp ok
  cases r with
  | error err => cases hv
  | ok w =>
    obtain rfl := Option.some.inj hv
    have named : w.name = n := name_of_rebuilt? hr
    have found : (reached c sources e done).version? w.name = some w := by
      rw [named, version, after_build, ok]
      rfl
    constructor
    · rw [Entry.upsert, Keyed.upsert_of_find? found]
    · intro nothing
      have unsaved := saved?_eq_none_of_trail nothing _ made
      rw [saved?, ok] at unsaved
      cases unsaved

end Sync

namespace Job

variable {c : Context} {j : Job} {old : Option Entry} {before : Entry} {isNew : Bool} {d : VersionDiff} {t : Timestamp}

/-- What a job leaves of an entry: it saves nothing and the entry is as it was, or it saves the entry last as it is
after the changes. -/
def Leaves (es : List Entry) (first last : Entry) : Prop := (es = [] ∧ last = first) ∨ es.getLast? = some last

theorem leaves_trail (e : Entry) (done : List Change) :
    Leaves (trail c j.sources e done) e (reached c j.sources e done) := by
  obtain same | ⟨earlier, last⟩ := trail_cases c j.sources e done
  · exact .inl same
  · exact .inr (by rw [last, List.getLast?_concat])

theorem leaves_steps : Leaves (j.steps c before isNew d) (withSettings before j.sources)
    (reached c j.sources (withSettings before j.sources) d.changes) := by
  rw [steps, closing_progress]
  split
  · exact .inr List.getLast?_concat
  · rw [List.append_nil]
    exact leaves_trail _ _

/-- The entry that a job starts from the second time, with its settings, is what the first has made of it. -/
theorem begins_again {es : List Entry} (begins : j.Begins old before isNew d) (done : List Change)
    (leaves : Leaves es (withSettings before j.sources) (reached c j.sources (withSettings before j.sources) done))
    {before' : Entry} {isNew' : Bool} {d' : VersionDiff} (again : j.Begins (es.getLast?.or old) before' isNew' d') :
    withSettings before' j.sources = reached c j.sources (withSettings before j.sources) done ∧
      ((es = [] ∧ before' = before ∧ isNew' = isNew) ∨
        (es.getLast? = some before' ∧ before' = reached c j.sources (withSettings before j.sources) done)) := by
  obtain ⟨rfl, same⟩ | last := leaves
  · have start := again.start
    rw [List.getLast?_nil, Option.none_or, begins.start] at start
    obtain ⟨rfl, rfl⟩ := Prod.mk.inj (Option.some.inj start)
    exact ⟨same.symm, .inl ⟨rfl, rfl, rfl⟩⟩
  · rw [last, Option.some_or] at again
    obtain rfl := again.eq
    exact ⟨withSettings_reached before done, .inr ⟨last, rfl⟩⟩

/-- A change that is asked for again for a version whose change was made is a build, and so was that. -/
theorem build_of_again {e : Entry} (he : e.HasDistinctNames)
    (compared : diff e.versions j.listing j.mode j.forced = .ok d) {done : List Change} (made : done <+: d.changes)
    {d' : VersionDiff}
    (again : diff (reached c j.sources e done).versions j.listing j.mode j.forced = .ok d') {change : Change}
    (hc : change ∈ d'.changes) (named : change.name ∈ done.map Change.name) :
    ∃ old new n, change = .build new n ∧ .build old n ∈ done := by
  have names := VersionDiff.nodup_of_prefix compared he made
  obtain ⟨first, hf, same⟩ := List.mem_map.mp named
  have asked := (VersionDiff.mem_changes compared).mp (made.subset hf)
  have version : (reached c j.sources e done).version? first.name = after c j.sources e first :=
    version?_reached_of_mem he names hf
  cases first with
  | build isNew n =>
    cases change with
    | build new m =>
      obtain rfl : n = m := same
      exact ⟨isNew, new, n, rfl, hf⟩
    | remove m =>
      obtain rfl : n = m := same
      obtain ⟨-, unlisted, -⟩ := (VersionDiff.mem_removed again).mp (VersionDiff.remove_mem_changes.mp hc)
      obtain ⟨r, hr, named⟩ : ∃ r ∈ j.listing.versions, r.name = n := by
        generalize built : Change.build isNew n = first at asked
        cases asked with
        | added listed => exact ⟨_, List.mem_of_find?_eq_some listed, (Change.build.inj built).2.symm⟩
        | updated listed => exact ⟨_, List.mem_of_find?_eq_some listed, (Change.build.inj built).2.symm⟩
        | removed => exact nomatch built
      exact absurd named (unlisted r hr)
  | remove n =>
    -- The version is gone, so it cannot be removed; and it is not listed, so it is not to be built.
    have gone : (reached c j.sources e done).version? n = none := version
    obtain ⟨-, unlisted, -⟩ := (VersionDiff.mem_removed compared).mp (VersionDiff.remove_mem_changes.mp (made.subset hf))
    have reason := (VersionDiff.mem_changes again).mp hc
    rw [Change.name_remove] at same
    cases reason with
    | added listed => exact absurd same.symm (unlisted _ (List.mem_of_find?_eq_some listed))
    | updated listed => exact absurd same.symm (unlisted _ (List.mem_of_find?_eq_some listed))
    | removed _ _ _ member _ => exact absurd same.symm (Entry.version?_eq_none_iff.mp gone _ member)

/-- Changes that are asked for again for versions whose changes were made leave the entry as it is. -/
theorem trail_again {e : Entry} (he : e.HasDistinctNames)
    (compared : diff e.versions j.listing j.mode j.forced = .ok d) {done : List Change} (made : done <+: d.changes)
    {d' : VersionDiff} (again : diff (reached c j.sources e done).versions j.listing j.mode j.forced = .ok d')
    {changes : List Change} (known : ∀ change ∈ changes, change ∈ d'.changes ∧ change.name ∈ done.map Change.name) :
    reached (c.withClock t) j.sources (reached c j.sources e done) changes = reached c j.sources e done ∧
      ∀ f ∈ trail (c.withClock t) j.sources (reached c j.sources e done) changes,
        f = reached c j.sources e done ∧ trail c j.sources e done ≠ [] := by
  have names := VersionDiff.nodup_of_prefix compared he made
  have settled {change : Change} (hc : change ∈ changes) {f : Entry}
      (saved : saved? (c.withClock t) j.sources (reached c j.sources e done) change = some f) :
      f = reached c j.sources e done ∧ trail c j.sources e done ≠ [] := by
    obtain ⟨old, new, n, rfl, built⟩ := build_of_again he compared made again (known change hc).1 (known change hc).2
    exact saved?_again he names built saved
  have kept : ∀ e' change f, change ∈ changes → e' = reached c j.sources e done →
      saved? (c.withClock t) j.sources e' change = some f → f = reached c j.sources e done :=
    fun e' change f hc same saved => (settled hc (same ▸ saved)).1
  obtain ⟨last, members⟩ := mem_trail kept rfl
  refine ⟨last, fun f hf => ?_⟩
  obtain ⟨-, e', rfl, change, hc, saved⟩ := members f hf
  exact settled hc saved

theorem Ran.of_fault {r : Except SyncError Unit} {es : List Entry} (h : j.Ran c old r es) {err : SyncError}
    (fault : c.world.lookupFault .entry = some err) : r ≠ .ok () ∧ es = [] := by
  cases h with
  | unread => exact ⟨nofun, rfl⟩
  | undeclared read => exact nomatch fault.symm.trans read
  | refused read => exact nomatch fault.symm.trans read
  | stopped read => exact nomatch fault.symm.trans read
  | unfinished read => exact nomatch fault.symm.trans read
  | finished read => exact nomatch fault.symm.trans read

theorem Ran.of_undeclared {r : Except SyncError Unit} {es : List Entry} (h : j.Ran c old r es)
    (read : c.world.lookupFault .entry = none) (absent : startingPoint j.path old j.sources = none) :
    r = .ok () ∧ es = [] := by
  cases h with
  | unread fault => exact nomatch fault.symm.trans read
  | undeclared => exact ⟨rfl, rfl⟩
  | refused _ start => exact nomatch absent.symm.trans start
  | stopped _ begins => exact nomatch absent.symm.trans begins.start
  | unfinished _ begins => exact nomatch absent.symm.trans begins.start
  | finished _ begins => exact nomatch absent.symm.trans begins.start

/-- Settings that differ from those on record are saved, unless there is nothing to save them with. -/
theorem steps_ne_nil (unsaved : withSettings before j.sources ≠ before)
    (filled : (isNew && (reached c j.sources (withSettings before j.sources) d.changes).versions.isEmpty) = false) :
    j.steps c before isNew d ≠ [] := by
  intro nothing
  obtain ⟨untouched, closed⟩ := List.append_eq_nil_iff.mp nothing
  rw [closing_progress, if_pos] at closed
  · exact nomatch closed
  · simp [firstWork, unsaved, untouched, filled]

/-- A job that has made all changes finds nothing new to save. -/
theorem saves_again_of_finished (he : before.HasDistinctNames) (begins : j.Begins old before isNew d) {before' : Entry}
    {isNew' : Bool} {d' : VersionDiff}
    (again : j.Begins ((j.steps c before isNew d).getLast?.or old) before' isNew' d') :
    ∀ f, (f ∈ j.steps (c.withClock t) before' isNew' d' ∨
        ∃ done', done' <+: d'.changes ∧ f ∈ trail (c.withClock t) j.sources (withSettings before' j.sources) done') →
      (j.steps c before isNew d).getLast?.or old = some f := by
  have first : (withSettings before j.sources).HasDistinctNames := distinct_firstWork (j := j) (d := d) he
  obtain ⟨settings, start⟩ := begins_again begins d.changes leaves_steps again
  have compared := again.compared
  rw [settings] at compared
  -- Whatever is to be changed now was to be changed before, and was changed.
  have known : ∀ change ∈ d'.changes, change.name ∈ d.changes.map Change.name := by
    intro change hc
    refine Classical.byContradiction fun fresh => fresh (List.mem_map_of_mem ?_)
    have same : (reached c j.sources (withSettings before j.sources) d.changes).version? change.name =
        (withSettings before j.sources).version? change.name := version?_reached_of_not_mem first fresh
    exact VersionDiff.mem_changes_of_same begins.compared compared (distinct_reached first _) hc same
  have settled {changes : List Change} (sub : changes ⊆ d'.changes) :=
    trail_again (c := c) (t := t) first begins.compared (List.prefix_refl _) compared
      fun change hc => ⟨sub hc, known change (sub hc)⟩
  have kept {f : Entry} (hf : f = reached c j.sources (withSettings before j.sources) d.changes ∧
      trail c j.sources (withSettings before j.sources) d.changes ≠ []) :
      (j.steps c before isNew d).getLast?.or old = some f := by
    obtain ⟨rfl, saved⟩ := hf
    obtain ⟨nothing, -⟩ | ⟨last, same⟩ := start
    · exact absurd (List.append_eq_nil_iff.mp nothing).1 saved
    · rw [last, Option.some_or, same]
  intro f hf
  rw [steps] at hf
  rcases hf with hf | ⟨done', made, hf⟩
  · rcases List.mem_append.mp hf with hf | hf
    · rw [settings] at hf
      exact kept ((settled (List.Subset.refl _)).2 f hf)
    · -- The settings are saved already, or there is nothing that they could be saved with.
      rw [closing_progress] at hf
      split at hf
      · rename_i unclosed
        simp only [firstWork, Bool.and_eq_true, decide_eq_true_eq, Bool.not_eq_true'] at unclosed
        obtain ⟨⟨unsaved, -⟩, filled⟩ := unclosed
        rw [settings, (settled (List.Subset.refl _)).1] at filled
        obtain ⟨nothing, rfl, rfl⟩ | ⟨-, same⟩ := start
        · exact absurd nothing (steps_ne_nil unsaved filled)
        · exact absurd (settings.trans same.symm) unsaved
      · exact absurd hf List.not_mem_nil
  · rw [settings] at hf
    exact kept ((settled made.subset).2 f hf)

/-- A job that was ended by a build is ended by it again, and finds nothing new to save before. -/
theorem saves_again_of_stopped (he : before.HasDistinctNames) (begins : j.Begins old before isNew d)
    {done rest : List Change} {change : Change} (changes : d.changes = done ++ change :: rest)
    (halts : Halts c j.sources (reached c j.sources (withSettings before j.sources) done) change) {before' : Entry}
    {isNew' : Bool} {d' : VersionDiff}
    (again : j.Begins ((trail c j.sources (withSettings before j.sources) done).getLast?.or old) before' isNew' d')
    {passed : List Change} (passes : Passes (c.withClock t) j.sources (withSettings before' j.sources) passed)
    (made : passed <+: d'.changes) :
    passed ≠ d'.changes ∧ ∀ f ∈ trail (c.withClock t) j.sources (withSettings before' j.sources) passed,
      (trail c j.sources (withSettings before j.sources) done).getLast?.or old = some f := by
  have first : (withSettings before j.sources).HasDistinctNames := distinct_firstWork (j := j) (d := d) he
  obtain ⟨settings, start⟩ := begins_again begins done (leaves_trail _ _) again
  have compared := again.compared
  rw [settings] at compared passes ⊢
  obtain ⟨isNew, n, -, rfl, -⟩ := halts.2
  obtain ⟨pre, post, changes', known⟩ := VersionDiff.changes_again begins.compared compared first changes
    fun n hn => version?_reached_of_not_mem first hn
  have settled {some_of : List Change} (sub : some_of <+: pre) := trail_again (c := c) (t := t) first begins.compared
    ⟨_, changes.symm⟩ compared fun change (hc : change ∈ some_of) =>
      ⟨changes' ▸ List.mem_append_left _ (sub.subset hc), known change (sub.subset hc)⟩
  have ends := halts.again t
  rw [← (settled (List.prefix_refl _)).1] at ends
  have short : passed <+: pre := prefix_of_passes passes ends (changes' ▸ made)
  refine ⟨fun all => ?_, fun f hf => ?_⟩
  · have longer := short.length_le
    rw [all, changes', List.length_append, List.length_cons] at longer
    omega
  · obtain ⟨rfl, saved⟩ := (settled short).2 f hf
    obtain ⟨nothing, -⟩ | ⟨last, same⟩ := start
    · exact absurd nothing saved
    · rw [last, Option.some_or, same]

theorem startingPoint_or {p : EntryPath} {sources : List VersionSource} (last : Option Entry)
    (h : startingPoint p old sources ≠ none) : startingPoint p (last.or old) sources ≠ none := by
  cases last with
  | none => exact h
  | some e => exact nofun

variable {es es' : List Entry} {r r' : Except SyncError Unit}

/-- A job that is done again, starting from what it has left, saves only what is there; and if it has stopped the call,
so it does again. -/
theorem Ran.again (h : j.Ran c old r es) (quiet : c.IsQuiet) (complete : j.listing.complete = true)
    (distinct : ∀ e, old = some e → e.HasDistinctNames) (k : j.Ran (c.withClock t) (es.getLast?.or old) r' es') :
    (∀ f ∈ es', es.getLast?.or old = some f) ∧ (r ≠ .ok () → r' ≠ .ok ()) := by
  cases read : c.world.lookupFault .entry with
  | some err =>
    obtain ⟨failed, rfl⟩ := k.of_fault read
    exact ⟨fun f hf => absurd hf List.not_mem_nil, fun _ => failed⟩
  | none =>
    by_cases start : startingPoint j.path old j.sources = none
    · obtain ⟨rfl, rfl⟩ := h.of_undeclared read start
      obtain ⟨-, rfl⟩ := k.of_undeclared read start
      exact ⟨fun f hf => absurd hf List.not_mem_nil, fun failed => absurd rfl failed⟩
    · obtain ⟨before, isNew, d, begins, first⟩ := h.begun quiet read start complete
      obtain ⟨before', isNew', d', again, second⟩ := k.begun (quiet.withClock t) read (startingPoint_or _ start) complete
      have he := begins.distinct distinct
      obtain ⟨rfl, -, rfl⟩ | ⟨-, done, change, rest, changes, halts, -, rfl⟩ := first
      · have settled := saves_again_of_finished (t := t) he begins again
        refine ⟨fun f hf => settled f ?_, fun failed => absurd rfl failed⟩
        obtain ⟨-, -, rfl⟩ | ⟨-, done', _, _, changes', -, -, rfl⟩ := second
        · exact .inl hf
        · exact .inr ⟨done', ⟨_, changes'.symm⟩, hf⟩
      · obtain ⟨-, passes, -⟩ | ⟨failed, done', _, _, changes', -, passes, rfl⟩ := second
        · exact absurd rfl (saves_again_of_stopped he begins changes halts again passes (List.prefix_refl _)).1
        · exact ⟨(saves_again_of_stopped he begins changes halts again passes ⟨_, changes'.symm⟩).2, fun _ => failed⟩

end Job

end WorkflowCatalog
