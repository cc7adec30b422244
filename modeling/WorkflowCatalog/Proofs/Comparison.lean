import WorkflowCatalog.Reconcile.Sync

/-!
# What a comparison finds

Of the versions that a listing names twice the first counts. The changes that a comparison asks for concern
different versions, one each; none concerns a frozen version, and versions are removed only by a full
comparison that does not know of them.
-/
namespace WorkflowCatalog

/-- The version that a change is about. -/
def Change.name : Change → String
  | build _ name => name
  | remove name => name

@[simp] theorem Change.name_build (isNew : Bool) (n : String) : (build isNew n).name = n := rfl

@[simp] theorem Change.name_remove (n : String) : (remove n).name = n := rfl

namespace VersionDiff

theorem mem_firstByName {r : RemoteVersion} {rs : List RemoteVersion} :
    r ∈ firstByName rs ↔ rs.find? (fun s => s.name == r.name) = some r := by
  induction rs with
  | nil => simp [firstByName]
  | cons a rs ih =>
    simp only [firstByName, List.mem_cons, List.mem_filter, ih, List.find?_cons]
    by_cases h : a.name = r.name
    · simp only [h, beq_self_eq_true, ne_eq, not_true_eq_false, decide_false, Bool.false_eq_true, and_false, or_false]
      grind
    · simp only [beq_false_of_ne h, ne_eq, Ne.symm h, not_false_eq_true, decide_true, and_true]
      grind

theorem nodup_firstByName (rs : List RemoteVersion) : ((firstByName rs).map RemoteVersion.name).Nodup := by
  induction rs with
  | nil => simp [firstByName]
  | cons a rs ih =>
    rw [firstByName, List.map_cons, List.nodup_cons]
    refine ⟨?_, (List.filter_sublist.map RemoteVersion.name).nodup ih⟩
    simp only [List.mem_map, List.mem_filter, decide_eq_true_eq]
    rintro ⟨b, ⟨-, hb⟩, e⟩
    exact hb e

theorem find?_firstByName (rs : List RemoteVersion) (n : String) :
    (firstByName rs).find? (fun r => r.name == n) = rs.find? fun r => r.name == n := by
  ext r
  rw [Keyed.find?_eq_some_iff (nodup_firstByName rs), mem_firstByName]
  constructor
  · rintro ⟨first, rfl⟩
    exact first
  · intro first
    obtain rfl : r.name = n := by simpa using List.find?_some first
    exact ⟨first, rfl⟩

variable {existing : List Version} {listing : RemoteListing} {mode : DiffMode} {forced : List String} {d : VersionDiff}

/-- What a comparison consists of, if it does not fail. -/
theorem eq_of_diff (h : diff existing listing mode forced = .ok d) :
    d.added = (firstByName listing.versions).filter (isAdded existing) ∧
      d.updated = (firstByName listing.versions).filter (isUpdated existing forced) ∧
      d.removed = ((existing.filter fun v => !listing.versions.any fun r => r.name == v.name).filter
        (isRemoved listing mode)).map Version.name := by
  unfold diff at h
  split at h
  · simp at h
  · rw [← Except.ok.inj h]
    exact ⟨rfl, rfl, rfl⟩

/-- What a comparison leaves as it is, if it does not fail. -/
theorem left_of_diff (h : diff existing listing mode forced = .ok d) :
    d.unchanged = ((firstByName listing.versions).filter (isKept existing forced)).map RemoteVersion.name ++
        ((existing.filter fun v => !listing.versions.any fun r => r.name == v.name).filter
          fun v => !isRemoved listing mode v).map Version.name ∧
      d.frozen = ((firstByName listing.versions).filter (isFrozen existing)).map RemoteVersion.name ++
        ((existing.filter fun v => !listing.versions.any fun r => r.name == v.name).filter (·.frozen)).map
          Version.name := by
  unfold diff at h
  split at h
  · simp at h
  · rw [← Except.ok.inj h]
    exact ⟨rfl, rfl⟩

/-- The names of listed versions that pass a test. -/
theorem mem_listed_filter {p : RemoteVersion → Bool} {n : String} :
    n ∈ ((firstByName listing.versions).filter p).map RemoteVersion.name ↔
      ∃ r, listing.versions.find? (fun r => r.name == n) = some r ∧ p r = true := by
  rw [Keyed.mem_map_filter (nodup_firstByName _), find?_firstByName]

/-- The names of versions that are on record only and pass a test. -/
theorem mem_absent_filter (distinct : (existing.map Version.name).Nodup) {p : Version → Bool} {n : String} :
    n ∈ ((existing.filter fun v => !listing.versions.any fun r => r.name == v.name).filter p).map Version.name ↔
      listing.versions.find? (fun r => r.name == n) = none ∧ ∃ v, find? n existing = some v ∧ p v = true := by
  rw [List.filter_filter, Keyed.mem_map_filter distinct, List.find?_eq_none]
  constructor
  · rintro ⟨v, found, passed⟩
    obtain rfl : v.name = n := by simpa using List.find?_some found
    rw [Bool.and_eq_true, Bool.not_eq_true', List.any_eq_false] at passed
    exact ⟨passed.2, v, found, passed.1⟩
  · rintro ⟨unlisted, v, found, passed⟩
    obtain rfl : v.name = n := by simpa using List.find?_some found
    refine ⟨v, found, ?_⟩
    rw [Bool.and_eq_true, Bool.not_eq_true', List.any_eq_false]
    exact ⟨passed, unlisted⟩

theorem mem_added (h : diff existing listing mode forced = .ok d) {r : RemoteVersion} :
    r ∈ d.added ↔
      listing.versions.find? (fun s => s.name == r.name) = some r ∧ find? r.name existing = none := by
  rw [(eq_of_diff h).1, List.mem_filter, mem_firstByName, isAdded, Option.isNone_iff_eq_none]

theorem mem_updated (h : diff existing listing mode forced = .ok d) {r : RemoteVersion} :
    r ∈ d.updated ↔
      listing.versions.find? (fun s => s.name == r.name) = some r ∧
        ∃ v, find? r.name existing = some v ∧ v.frozen = false ∧ moves forced r v = true := by
  rw [(eq_of_diff h).2.1, List.mem_filter, mem_firstByName, isUpdated]
  cases find? r.name existing <;> simp

theorem mem_removed (h : diff existing listing mode forced = .ok d) {n : String} :
    n ∈ d.removed ↔
      mode = .fullSync ∧ (∀ r ∈ listing.versions, r.name ≠ n) ∧ n ∉ listing.protectedNames ∧
        ∃ v ∈ existing, v.name = n ∧ v.frozen = false := by
  rw [(eq_of_diff h).2.2]
  simp only [List.mem_map, List.mem_filter, isRemoved, Bool.and_eq_true, decide_eq_true_eq, Bool.not_eq_true',
    List.any_eq_false, beq_iff_eq, List.contains_eq_mem, decide_eq_false_iff_not]
  constructor
  · rintro ⟨v, ⟨⟨hv, hl⟩, ⟨hm, hf⟩, hp⟩, rfl⟩
    exact ⟨hm, hl, hp, v, hv, rfl, hf⟩
  · rintro ⟨hm, hl, hp, v, hv, rfl, hf⟩
    exact ⟨v, ⟨⟨hv, hl⟩, ⟨hm, hf⟩, hp⟩, rfl⟩

/-- Frozen versions on record are skipped, listed or not. -/
theorem mem_frozen (h : diff existing listing mode forced = .ok d) (distinct : (existing.map Version.name).Nodup)
    {n : String} : n ∈ d.frozen ↔ ∃ v, find? n existing = some v ∧ v.frozen = true := by
  rw [(left_of_diff h).2, List.mem_append, mem_listed_filter, mem_absent_filter distinct]
  cases listed : listing.versions.find? fun r => r.name == n with
  | none => simp
  | some r =>
    obtain rfl : r.name = n := by simpa using List.find?_some listed
    cases found : find? r.name existing <;> simp [isFrozen, found]

theorem build_true_mem_changes {n : String} : Change.build true n ∈ d.changes ↔ ∃ r ∈ d.added, r.name = n := by
  simp [changes]

theorem build_false_mem_changes {n : String} : Change.build false n ∈ d.changes ↔ ∃ r ∈ d.updated, r.name = n := by
  simp [changes]

theorem remove_mem_changes {n : String} : Change.remove n ∈ d.changes ↔ n ∈ d.removed := by
  simp [changes]

theorem names_changes (d : VersionDiff) :
    d.changes.map Change.name = d.added.map RemoteVersion.name ++ d.updated.map RemoteVersion.name ++ d.removed := by
  simp [changes, Function.comp_def]

/-- Each version is changed once at most. -/
theorem nodup_changes (h : diff existing listing mode forced = .ok d) (hn : (existing.map Version.name).Nodup) :
    (d.changes.map Change.name).Nodup := by
  obtain ⟨added, updated, removed⟩ := eq_of_diff h
  have ha : (d.added.map RemoteVersion.name).Nodup :=
    added ▸ (List.filter_sublist.map _).nodup (nodup_firstByName _)
  have hu : (d.updated.map RemoteVersion.name).Nodup :=
    updated ▸ (List.filter_sublist.map _).nodup (nodup_firstByName _)
  have hr : d.removed.Nodup := removed ▸ ((List.filter_sublist.trans List.filter_sublist).map _).nodup hn
  rw [names_changes, List.nodup_append, List.nodup_append]
  refine ⟨⟨ha, hu, ?_⟩, hr, ?_⟩
  · intro n hna m hmu e
    obtain ⟨r, hra, rfl⟩ := List.mem_map.mp hna
    obtain ⟨t, htu, rfl⟩ := List.mem_map.mp hmu
    obtain ⟨-, v, hv, -⟩ := (mem_updated h).mp htu
    rw [← e, ((mem_added h).mp hra).2] at hv
    contradiction
  · intro n hl m hm e
    obtain ⟨-, hm, -⟩ := (mem_removed h).mp hm
    rcases List.mem_append.mp hl with hl | hl
    · obtain ⟨r, hr, rfl⟩ := List.mem_map.mp hl
      exact hm r (List.mem_of_find?_eq_some ((mem_added h).mp hr).1) e
    · obtain ⟨r, hr, rfl⟩ := List.mem_map.mp hl
      exact hm r (List.mem_of_find?_eq_some ((mem_updated h).mp hr).1) e

theorem nodup_of_prefix (h : diff existing listing mode forced = .ok d) (hn : (existing.map Version.name).Nodup)
    {done : List Change} (made : done <+: d.changes) : (done.map Change.name).Nodup :=
  (made.sublist.map Change.name).nodup (nodup_changes h hn)

/-- Why a comparison asks for a change: a listed version is new or has moved, or a version is listed no more. -/
inductive Reason (existing : List Version) (listing : RemoteListing) (mode : DiffMode) (forced : List String) :
    Change → Prop
  | added {r : RemoteVersion} (listed : listing.versions.find? (fun s => s.name == r.name) = some r)
      (absent : find? r.name existing = none) : Reason existing listing mode forced (.build true r.name)
  | updated {r : RemoteVersion} {v : Version} (listed : listing.versions.find? (fun s => s.name == r.name) = some r)
      (found : find? r.name existing = some v) (mutable : v.frozen = false) (moved : moves forced r v = true) :
      Reason existing listing mode forced (.build false r.name)
  | removed {v : Version} (full : mode = .fullSync) (unlisted : ∀ r ∈ listing.versions, r.name ≠ v.name)
      (unprotected : v.name ∉ listing.protectedNames) (member : v ∈ existing) (mutable : v.frozen = false) :
      Reason existing listing mode forced (.remove v.name)

theorem mem_changes (h : diff existing listing mode forced = .ok d) {change : Change} :
    change ∈ d.changes ↔ Reason existing listing mode forced change := by
  constructor
  · intro hc
    match change with
    | .build true n =>
      obtain ⟨r, hr, rfl⟩ := build_true_mem_changes.mp hc
      obtain ⟨listed, absent⟩ := (mem_added h).mp hr
      exact .added listed absent
    | .build false n =>
      obtain ⟨r, hr, rfl⟩ := build_false_mem_changes.mp hc
      obtain ⟨listed, v, found, mutable, moved⟩ := (mem_updated h).mp hr
      exact .updated listed found mutable moved
    | .remove n =>
      obtain ⟨mode, unlisted, unprotected, v, member, rfl, mutable⟩ := (mem_removed h).mp (remove_mem_changes.mp hc)
      exact .removed mode unlisted unprotected member mutable
  · intro reason
    cases reason with
    | added listed absent => exact build_true_mem_changes.mpr ⟨_, (mem_added h).mpr ⟨listed, absent⟩, rfl⟩
    | updated listed found mutable moved =>
      exact build_false_mem_changes.mpr ⟨_, (mem_updated h).mpr ⟨listed, _, found, mutable, moved⟩, rfl⟩
    | removed mode unlisted unprotected member mutable =>
      exact remove_mem_changes.mpr ((mem_removed h).mpr ⟨mode, unlisted, unprotected, _, member, rfl, mutable⟩)

/-- A frozen version is not changed. -/
theorem name_ne_of_frozen (h : diff existing listing mode forced = .ok d) (hn : (existing.map Version.name).Nodup)
    {v : Version} (hv : v ∈ existing) (hf : v.frozen = true) {change : Change} (hc : change ∈ d.changes) :
    change.name ≠ v.name := by
  have found : find? v.name existing = some v := (Keyed.find?_eq_some_iff hn).mpr ⟨hv, rfl⟩
  intro name
  cases (mem_changes h).mp hc with
  | added _ absent =>
    rw [Change.name_build] at name
    rw [name, found] at absent
    contradiction
  | updated _ found' mutable _ =>
    rw [Change.name_build] at name
    rw [name, found, Option.some.injEq] at found'
    rw [← found', hf] at mutable
    contradiction
  | removed _ _ _ member mutable =>
    have found' : find? v.name existing = some _ := (Keyed.find?_eq_some_iff hn).mpr ⟨member, name⟩
    rw [found, Option.some.injEq] at found'
    rw [← found', hf] at mutable
    contradiction

/-- A version that is listed and has not moved is not changed. -/
theorem name_ne_of_unmoved (h : diff existing listing mode forced = .ok d) {r : RemoteVersion} {v : Version}
    (listed : listing.versions.find? (fun s => s.name == r.name) = some r) (found : find? r.name existing = some v)
    (unmoved : moves forced r v = false) {change : Change} (hc : change ∈ d.changes) : change.name ≠ r.name := by
  intro name
  cases (mem_changes h).mp hc with
  | added _ absent =>
    rw [Change.name_build] at name
    rw [name, found] at absent
    contradiction
  | updated listed' found' _ moved =>
    rw [Change.name_build] at name
    rw [name, listed, Option.some.injEq] at listed'
    rw [name, found, Option.some.injEq] at found'
    rw [← listed', ← found', unmoved] at moved
    contradiction
  | removed _ unlisted _ _ _ => exact unlisted r (List.mem_of_find?_eq_some listed) name.symm

/-! ## Comparing again -/

/-- The versions that are to be built, which comes before any is removed. -/
def builds (d : VersionDiff) : List Change :=
  d.added.map (fun r => .build true r.name) ++ d.updated.map fun r => .build false r.name

theorem changes_eq (d : VersionDiff) : d.changes = d.builds ++ d.removed.map .remove := rfl

section Again

variable {existing' : List Version} {d' : VersionDiff} {names : List String}

/-- Where the versions on record differ in some names only, the same is to be built of the others, in the same order. -/
theorem filter_builds (h : diff existing listing mode forced = .ok d) (h' : diff existing' listing mode forced = .ok d')
    (same : ∀ n, n ∉ names → find? n existing' = find? n existing) :
    d'.builds.filter (fun change => change.name ∉ names) = d.builds.filter fun change => change.name ∉ names := by
  obtain ⟨added, updated, -⟩ := eq_of_diff h
  obtain ⟨added', updated', -⟩ := eq_of_diff h'
  simp only [builds, added, added', updated, updated', List.filter_append, List.filter_map, List.filter_filter]
  congr 2
  · refine List.filter_congr fun r _ => ?_
    by_cases other : r.name ∈ names
    · simp [other]
    · simp [isAdded, same r.name other]
  · refine List.filter_congr fun r _ => ?_
    by_cases other : r.name ∈ names
    · simp [other]
    · simp [isUpdated, same r.name other]

/-- A change that is asked for again, to a version that is as it was, was asked for before. -/
theorem mem_changes_of_same (h : diff existing listing mode forced = .ok d)
    (h' : diff existing' listing mode forced = .ok d') (distinct : (existing'.map Version.name).Nodup) {change : Change}
    (hc : change ∈ d'.changes) (same : find? change.name existing' = find? change.name existing) :
    change ∈ d.changes := by
  refine (mem_changes h).mpr ?_
  cases (mem_changes h').mp hc with
  | added listed absent => exact .added listed (same.symm.trans absent)
  | updated listed found mutable moved => exact .updated listed (same.symm.trans found) mutable moved
  | @removed v full unlisted unprotected member mutable =>
    have found : find? v.name existing' = some v := (Keyed.find?_eq_some_iff distinct).mpr ⟨member, rfl⟩
    exact .removed full unlisted unprotected (List.mem_of_find?_eq_some (same.symm.trans found)) mutable

/-- If a run through the changes has come to a build, and a comparison is made again, then all that is asked for before
that build is builds of versions whose change was made. -/
theorem changes_again (h : diff existing listing mode forced = .ok d) (h' : diff existing' listing mode forced = .ok d')
    (distinct : (existing.map Version.name).Nodup) {done rest : List Change} {isNew : Bool} {name : String}
    (changes : d.changes = done ++ .build isNew name :: rest)
    (same : ∀ n, n ∉ done.map Change.name → find? n existing' = find? n existing) :
    ∃ before after, d'.changes = before ++ .build isNew name :: after ∧
      ∀ change ∈ before, change.name ∈ done.map Change.name := by
  have names := nodup_changes h distinct
  rw [changes, List.map_append, List.map_cons, Change.name_build] at names
  have fresh : name ∉ done.map Change.name := fun hn =>
    (List.nodup_append.mp names).2.2 name hn name List.mem_cons_self rfl
  -- The build stands among the builds, after those that were made.
  obtain ⟨others, builds⟩ : ∃ others, d.builds = done ++ .build isNew name :: others := by
    rw [changes_eq] at changes
    obtain ⟨more, hd, hr⟩ | ⟨more, hb, hr⟩ := List.append_eq_append_iff.mp changes
    · have member : Change.build isNew name ∈ d.removed.map .remove := hr ▸ List.mem_append_right _ List.mem_cons_self
      obtain ⟨_, -, remove⟩ := List.mem_map.mp member
      exact nomatch remove
    · cases more with
      | nil =>
        have member : Change.build isNew name ∈ d.removed.map .remove := by
          rw [List.nil_append] at hr
          exact hr ▸ List.mem_cons_self
        obtain ⟨_, -, remove⟩ := List.mem_map.mp member
        exact nomatch remove
      | cons first more =>
        obtain ⟨rfl, -⟩ := List.cons.inj hr
        exact ⟨more, hb⟩
  have filtered := filter_builds h h' same
  have made : done.filter (fun change => change.name ∉ done.map Change.name) = [] := by
    rw [List.filter_eq_nil_iff]
    intro change hc
    simpa using List.mem_map_of_mem (f := Change.name) hc
  rw [builds, List.filter_append, made, List.nil_append, List.filter_cons_of_pos (by simpa using fresh)] at filtered
  obtain ⟨before, after, split, passed, -⟩ := List.filter_eq_cons_iff.mp filtered
  refine ⟨before, after ++ d'.removed.map .remove, ?_, fun change hc => ?_⟩
  · rw [changes_eq, split, List.append_assoc, List.cons_append]
  · simpa using passed change hc

end Again

end VersionDiff

end WorkflowCatalog
