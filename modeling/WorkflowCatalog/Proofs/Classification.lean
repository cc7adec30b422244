import WorkflowCatalog.Proofs.Comparison
import WorkflowCatalog.Proofs.Fates

/-!
# The fate of each version

A comparison that does not fail tells for each name on record or in the listing what is to become of the version, and
tells it once. The first version that is listed with a name counts, and versions are told in the order of the listing.
-/
namespace WorkflowCatalog.VersionDiff

def names (d : VersionDiff) : Fate → List String
  | .added => d.added.map RemoteVersion.name
  | .updated => d.updated.map RemoteVersion.name
  | .unchanged => d.unchanged
  | .removed => d.removed

/-- A version on record is to be built again for one that is listed: it is not frozen, and its commit is another one or
it is forced. -/
def IsDue (forced : List String) (r : RemoteVersion) (v : Version) : Prop :=
  v.frozen = false ∧ (v.commitId ≠ some r.commitId ∨ v.name ∈ forced)

instance (forced : List String) (r : RemoteVersion) (v : Version) : Decidable (IsDue forced r v) :=
  inferInstanceAs (Decidable (_ ∧ _))

/-- A version on record that is not listed is to be removed: the listing is of all versions, and the version is neither
frozen nor protected. -/
def IsGone (listing : RemoteListing) (mode : DiffMode) (v : Version) : Prop :=
  mode = .fullSync ∧ v.frozen = false ∧ v.name ∉ listing.protectedNames

instance (listing : RemoteListing) (mode : DiffMode) (v : Version) : Decidable (IsGone listing mode v) :=
  inferInstanceAs (Decidable (_ ∧ _))

/-- The first version that is listed with the name. -/
def listed? (listing : RemoteListing) (n : String) : Option RemoteVersion :=
  listing.versions.find? fun r => r.name == n

def fate? (existing : List Version) (listing : RemoteListing) (mode : DiffMode) (forced : List String) (n : String) :
    Option Fate :=
  match find? n existing, listed? listing n with
  | none, none => none
  | none, some _ => some .added
  | some v, some r => if IsDue forced r v then some .updated else some .unchanged
  | some v, none => if IsGone listing mode v then some .removed else some .unchanged

/-- The first version is listed before the second. -/
def ListedBefore (listing : RemoteListing) (r s : RemoteVersion) : Prop :=
  listing.versions.idxOf r < listing.versions.idxOf s

/-- The names on record and in the listing are each told with their fates, and with the versions listed first. -/
structure Classifies (existing : List Version) (listing : RemoteListing) (mode : DiffMode) (forced : List String)
    (d : VersionDiff) : Prop where
  fates : ∀ x n, n ∈ d.names x ↔ fate? existing listing mode forced n = some x
  once : (Fate.all.flatMap d.names).Nodup
  together : ∀ n, n ∈ Fate.all.flatMap d.names ↔
    n ∈ existing.map Version.name ∨ n ∈ listing.versions.map RemoteVersion.name
  frozen : ∀ n, n ∈ d.frozen ↔ ∃ v ∈ existing, v.name = n ∧ v.frozen = true
  frozenOnce : d.frozen.Nodup
  first : ∀ r ∈ d.added ++ d.updated, listed? listing r.name = some r
  addedInOrder : d.added.Pairwise (ListedBefore listing)
  updatedInOrder : d.updated.Pairwise (ListedBefore listing)

variable {existing : List Version} {listing : RemoteListing} {mode : DiffMode} {forced : List String} {d : VersionDiff}

theorem name_of_listed? {n : String} {r : RemoteVersion} (h : listed? listing n = some r) : r.name = n := by
  simpa using List.find?_some h

theorem moves_iff {r : RemoteVersion} {v : Version} :
    (v.frozen = false ∧ moves forced r v = true) ↔ IsDue forced r v := by
  simp [moves, IsDue]

theorem isRemoved_iff {v : Version} : isRemoved listing mode v = true ↔ IsGone listing mode v := by
  simp [isRemoved, IsGone, and_assoc]

section Names

variable (h : diff existing listing mode forced = .ok d) (distinct : (existing.map Version.name).Nodup) {n : String}
include h

theorem mem_added_names : n ∈ d.names .added ↔ ∃ r, listed? listing n = some r ∧ find? n existing = none := by
  rw [names, (eq_of_diff h).1, mem_listed_filter]
  refine exists_congr fun r => and_congr_right fun listed => ?_
  rw [isAdded, name_of_listed? listed, Option.isNone_iff_eq_none]

theorem mem_updated_names : n ∈ d.names .updated ↔
    ∃ r, listed? listing n = some r ∧ ∃ v, find? n existing = some v ∧ IsDue forced r v := by
  rw [names, (eq_of_diff h).2.1, mem_listed_filter]
  refine exists_congr fun r => and_congr_right fun listed => ?_
  rw [isUpdated, name_of_listed? listed]
  cases find? n existing <;> simp [← moves_iff]

include distinct

theorem mem_unchanged_names : n ∈ d.names .unchanged ↔
    (∃ r, listed? listing n = some r ∧ ∃ v, find? n existing = some v ∧ ¬ IsDue forced r v) ∨
    (listed? listing n = none ∧ ∃ v, find? n existing = some v ∧ ¬ IsGone listing mode v) := by
  rw [names, (left_of_diff h).1, List.mem_append, mem_listed_filter, mem_absent_filter distinct]
  refine or_congr (exists_congr fun r => and_congr_right fun listed => ?_) (and_congr_right fun _ => ?_)
  · rw [isKept, name_of_listed? listed]
    cases find? n existing with
    | none => simp
    | some v =>
      simp only [Option.some.injEq, exists_eq_left', ← moves_iff]
      cases v.frozen <;> simp
  · refine exists_congr fun v => and_congr_right fun _ => ?_
    rw [← isRemoved_iff, Bool.not_eq_true', Bool.not_eq_true]

theorem mem_removed_names : n ∈ d.names .removed ↔
    listed? listing n = none ∧ ∃ v, find? n existing = some v ∧ IsGone listing mode v := by
  rw [names, (eq_of_diff h).2.2, mem_absent_filter distinct]
  refine and_congr_right fun _ => exists_congr fun v => and_congr_right fun _ => ?_
  exact isRemoved_iff

theorem mem_names_iff (x : Fate) : n ∈ d.names x ↔ fate? existing listing mode forced n = some x := by
  cases x with
  | added =>
    rw [mem_added_names h, fate?]
    cases find? n existing <;> cases listed? listing n <;> simp [ite_eq_iff]
  | updated =>
    rw [mem_updated_names h, fate?]
    cases find? n existing <;> cases listed? listing n <;> simp [ite_eq_iff]
  | unchanged =>
    rw [mem_unchanged_names h distinct, fate?]
    cases find? n existing <;> cases listed? listing n <;> simp
  | removed =>
    rw [mem_removed_names h distinct, fate?]
    cases find? n existing <;> cases listed? listing n <;> simp [ite_eq_iff]

end Names

/-- What is told of listed versions and what is told of others are different names. -/
theorem nodup_listed_absent (distinct : (existing.map Version.name).Nodup) (listing : RemoteListing)
    (p : RemoteVersion → Bool) (q : Version → Bool) :
    (((firstByName listing.versions).filter p).map RemoteVersion.name ++
      ((existing.filter fun v => !listing.versions.any fun r => r.name == v.name).filter q).map Version.name).Nodup := by
  rw [List.nodup_append]
  refine ⟨(List.filter_sublist.map _).nodup (nodup_firstByName _),
    ((List.filter_sublist.trans List.filter_sublist).map _).nodup distinct, ?_⟩
  intro n hn m hm e
  obtain ⟨r, listed, -⟩ := mem_listed_filter.mp hn
  obtain ⟨unlisted, -⟩ := (mem_absent_filter distinct).mp hm
  rw [e, unlisted] at listed
  contradiction

/-- A comparison tells the fate of each name, and tells it once. -/
theorem sorts_names (h : diff existing listing mode forced = .ok d) (distinct : (existing.map Version.name).Nodup) :
    Fate.Sorts (fate? existing listing mode forced) d.names where
  nodup x := by
    obtain ⟨added, updated, removed⟩ := eq_of_diff h
    cases x with
    | added =>
      rw [names, added]
      exact (List.filter_sublist.map _).nodup (nodup_firstByName _)
    | updated =>
      rw [names, updated]
      exact (List.filter_sublist.map _).nodup (nodup_firstByName _)
    | unchanged =>
      rw [names, (left_of_diff h).1]
      exact nodup_listed_absent distinct listing _ _
    | removed =>
      rw [names, removed]
      exact ((List.filter_sublist.trans List.filter_sublist).map _).nodup distinct
  mem_iff x _ := mem_names_iff h distinct x

theorem isSome_fate? {n : String} : (fate? existing listing mode forced n).isSome = true ↔
    n ∈ existing.map Version.name ∨ n ∈ listing.versions.map RemoteVersion.name := by
  rw [Ascending.mem_keys_iff, Ascending.mem_keys_iff, fate?, find?, listed?]
  cases existing.find? _ <;> cases listing.versions.find? _ <;> simp [apply_ite Option.isSome]

/-! ## The order of a listing -/

theorem ordered_firstByName (rs : List RemoteVersion) :
    (firstByName rs).Pairwise fun r s => rs.idxOf r < rs.idxOf s := by
  induction rs with
  | nil => exact List.Pairwise.nil
  | cons a rs ih =>
    have other : ∀ r ∈ (firstByName rs).filter fun s => s.name ≠ a.name, (a :: rs).idxOf r = rs.idxOf r + 1 := by
      intro r hr
      have ne : a ≠ r := by
        rintro rfl
        simp at hr
      rw [List.idxOf_cons, beq_false_of_ne ne, cond_false]
    rw [firstByName, List.pairwise_cons]
    constructor
    · intro r hr
      rw [other r hr, List.idxOf_cons_self]
      omega
    · apply (ih.sublist List.filter_sublist).imp_of_mem
      intro r s hr hs lt
      rw [other r hr, other s hs]
      omega

theorem ordered_filter (listing : RemoteListing) (p : RemoteVersion → Bool) :
    ((firstByName listing.versions).filter p).Pairwise (ListedBefore listing) :=
  (ordered_firstByName listing.versions).sublist List.filter_sublist

theorem classifies_of_diff (h : diff existing listing mode forced = .ok d)
    (distinct : (existing.map Version.name).Nodup) : Classifies existing listing mode forced d where
  fates x _ := mem_names_iff h distinct x
  once := (sorts_names h distinct).nodup_together
  together _ := (sorts_names h distinct).mem_together.trans isSome_fate?
  frozen := by
    intro n
    rw [mem_frozen h distinct]
    simp only [find?, Keyed.find?_eq_some_iff distinct, and_assoc]
  frozenOnce := by
    rw [(left_of_diff h).2]
    exact nodup_listed_absent distinct listing _ _
  first := by
    intro r hr
    rcases List.mem_append.mp hr with added | updated
    · exact ((mem_added h).mp added).1
    · exact ((mem_updated h).mp updated).1
  addedInOrder := by
    rw [(eq_of_diff h).1]
    exact ordered_filter listing _
  updatedInOrder := by
    rw [(eq_of_diff h).2.1]
    exact ordered_filter listing _

theorem diff_eq_error_iff {err : SyncError} : diff existing listing mode forced = .error err ↔
    (mode = .fullSync ∧ listing.complete = false) ∧
      err = .incompleteListing (toString listing.versions.length ++ " versions seen") := by
  rw [diff]
  split
  · rename_i incomplete
    simp [incomplete, eq_comm]
  · rename_i complete
    simp [complete]

/-- A comparison fails for a listing that is not complete, if it should tell what is to be removed, and for nothing else.
Otherwise it tells each version with its fate. -/
theorem comparison_classifies (distinct : (existing.map Version.name).Nodup) (listing : RemoteListing)
    (mode : DiffMode) (forced : List String) :
    (∀ err, diff existing listing mode forced = .error err ↔ (mode = .fullSync ∧ listing.complete = false) ∧
      err = .incompleteListing (toString listing.versions.length ++ " versions seen")) ∧
    (¬ (mode = .fullSync ∧ listing.complete = false) →
      ∃ d, diff existing listing mode forced = .ok d ∧ Classifies existing listing mode forced d) := by
  refine ⟨fun err => diff_eq_error_iff, fun complete => ?_⟩
  cases compared : diff existing listing mode forced with
  | error err => exact absurd (diff_eq_error_iff.mp compared).1 complete
  | ok d => exact ⟨d, rfl, classifies_of_diff compared distinct⟩

namespace Sample

def stored (name commit : String) (frozen : Bool) : Version :=
  { Version.ofRemote ⟨name, .tag, commit, none⟩ .wdl with commitId := some commit, frozen := frozen }

def onRecord : List Version :=
  [stored "frozen" "c1" true, stored "moved" "c1" false, stored "same" "c1" false, stored "forced" "c1" false,
    stored "gone" "c1" false, stored "unclear" "c1" false, stored "archived" "c1" true]

/-- One version is new, and one is listed a second time at the commit that it was at. -/
def seen (complete : Bool) : RemoteListing where
  versions := [⟨"new", .branch, "c3", none⟩, ⟨"moved", .tag, "c2", none⟩, ⟨"frozen", .tag, "c2", none⟩,
    ⟨"moved", .tag, "c1", none⟩, ⟨"same", .tag, "c1", none⟩, ⟨"forced", .tag, "c1", none⟩]
  complete := complete
  protectedNames := ["unclear"]

end Sample

theorem sample_comparison_classifies : (Sample.onRecord.map Version.name).Nodup ∧
    diff Sample.onRecord (Sample.seen false) .fullSync ["forced"] = .error (.incompleteListing "6 versions seen") ∧
    ¬ (DiffMode.fullSync = .fullSync ∧ (Sample.seen true).complete = false) ∧
    ∃ d, diff Sample.onRecord (Sample.seen true) .fullSync ["forced"] = .ok d ∧
      Classifies Sample.onRecord (Sample.seen true) .fullSync ["forced"] d ∧
      "moved" ∈ d.names .updated ∧ "gone" ∈ d.names .removed ∧ "archived" ∈ d.frozen := by
  have distinct : (Sample.onRecord.map Version.name).Nodup := by decide
  have complete : ¬ (DiffMode.fullSync = .fullSync ∧ (Sample.seen true).complete = false) := by decide
  have failed := (comparison_classifies distinct (Sample.seen false) .fullSync ["forced"]).1
    (.incompleteListing "6 versions seen")
  obtain ⟨d, compared, told⟩ := (comparison_classifies distinct (Sample.seen true) .fullSync ["forced"]).2 complete
  refine ⟨distinct, failed.mpr ⟨by decide, by decide⟩, complete, d, compared, told, ?_, ?_, ?_⟩
  · exact (told.fates .updated "moved").mpr (by decide)
  · exact (told.fates .removed "gone").mpr (by decide)
  · exact (told.frozen "archived").mpr (by decide)

end WorkflowCatalog.VersionDiff
