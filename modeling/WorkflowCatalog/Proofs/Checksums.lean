import WorkflowCatalog.Proofs.Rounds

/-!
# Checksums are never out of date

A file is sound if each of its checksums is of the content that it has. A merge brings the checksum of one algorithm up
to date, and keeps that of another one only where the content is the same as before. So however contents and algorithms
change from merge to merge, all files stay sound.
-/
namespace WorkflowCatalog

namespace Checksum

theorem replace_eq_upsert (fresh : Checksum) (cs : List Checksum) :
    replace fresh cs = Keyed.upsert Checksum.algorithm fresh cs := by
  induction cs with
  | nil => rfl
  | cons c cs ih => rw [replace, Keyed.upsert, ih]

theorem mem_sort {c : Checksum} {cs : List Checksum} : c ∈ sort cs ↔ c ∈ cs := by
  simp only [sort, List.mem_flatMap, List.mem_filter, decide_eq_true_eq]
  constructor
  · rintro ⟨a, -, member, -⟩
    exact member
  · intro member
    exact ⟨c.algorithm, by cases c.algorithm <;> decide, member, rfl⟩

/-- The first checksum of an algorithm is the same after sorting. -/
theorem find?_sort (a : DigestAlgorithm) (cs : List Checksum) :
    (sort cs).find? (fun c => c.algorithm == a) = cs.find? fun c => c.algorithm == a := by
  have same := congrArg List.head? (filter_sort a cs)
  rw [List.head?_filter, List.head?_filter] at same
  exact same

/-- Checksums of different algorithms are sorted in the order of their algorithms. -/
theorem isAscending_sort {cs : List Checksum} (distinct : (cs.map Checksum.algorithm).Nodup) :
    Ascending.IsAscending (fun c => c.algorithm.rank) (sort cs) := by
  rw [Ascending.IsAscending, sort, List.pairwise_flatMap]
  constructor
  · intro a _
    -- No two checksums are of one algorithm.
    have apart := (List.pairwise_map.mp distinct).sublist (List.filter_sublist (p := fun c => c.algorithm = a))
    refine apart.imp_of_mem fun hc hd other => absurd ?_ other
    rw [of_decide_eq_true (List.mem_filter.mp hc).2, of_decide_eq_true (List.mem_filter.mp hd).2]
  · have ranks : DigestAlgorithm.all.Pairwise fun a b => a.rank < b.rank := by decide
    refine ranks.imp fun lt c hc d hd => ?_
    rw [of_decide_eq_true (List.mem_filter.mp hc).2, of_decide_eq_true (List.mem_filter.mp hd).2]
    exact lt

end Checksum

namespace SourceFile

/-- A file without content has no checksums. A file with content has at most one for each algorithm, in the order of the
algorithms, and each is the digest of the content. -/
inductive IsSound (f : SourceFile) : Prop
  | absent (content : f.content = none) (checksums : f.checksums = [])
  | present {text : String} (content : f.content = some text)
      (ordered : Ascending.IsAscending (fun c => c.algorithm.rank) f.checksums)
      (current : ∀ c ∈ f.checksums, c.digest = c.algorithm.digest text)

variable {f : SourceFile} {text : String}

theorem IsSound.distinct (h : f.IsSound) : (f.checksums.map Checksum.algorithm).Nodup := by
  cases h with
  | absent content checksums =>
    rw [checksums]
    exact List.Pairwise.nil
  | present content ordered current =>
    rw [List.Nodup, List.pairwise_map]
    apply ordered.imp
    intro c d lt e
    exact Nat.ne_of_lt lt (congrArg DigestAlgorithm.rank e)

theorem IsSound.congr {g : SourceFile} (h : f.IsSound) (content : g.content = f.content)
    (checksums : g.checksums = f.checksums) : g.IsSound := by
  cases h with
  | absent content' checksums' => exact .absent (content.trans content') (checksums.trans checksums')
  | present content' ordered current => exact .present (content.trans content') (checksums ▸ ordered) (checksums ▸ current)

/-! ## Bringing checksums up to date -/

section Refreshed

variable (a : DigestAlgorithm)

@[simp] theorem content_refreshed (changed : Bool) : (f.refreshed a changed).content = f.content := by
  obtain ⟨checksums, e⟩ := refreshed_eq f a changed
  rw [e]

theorem checksums_absent (content : f.content = none) (changed : Bool) : (f.refreshed a changed).checksums = [] := by
  rw [refreshed, content]

theorem checksums_changed (content : f.content = some text) :
    (f.refreshed a true).checksums = [Checksum.ofText a text] := by
  simp only [refreshed, content, if_true]

theorem checksums_same (content : f.content = some text) : (f.refreshed a false).checksums =
    Checksum.sort (Keyed.upsert Checksum.algorithm (Checksum.ofText a text) f.checksums) := by
  simp only [refreshed, content, Bool.false_eq_true, if_false, Checksum.replace_eq_upsert]

/-- After a change of content, the one checksum that is there is new. -/
theorem isSound_of_changed : (f.refreshed a true).IsSound := by
  cases content : f.content with
  | none =>
    apply IsSound.absent
    · rw [content_refreshed, content]
    · exact checksums_absent a content true
  | some text =>
    have single := checksums_changed a content
    apply IsSound.present ((content_refreshed a true).trans content)
    · rw [single]
      exact List.pairwise_singleton _ _
    · intro c hc
      rw [single, List.mem_singleton] at hc
      rw [hc]
      rfl

/-- Without a change of content, checksums that were right are still right. -/
theorem IsSound.refreshed (h : f.IsSound) : (f.refreshed a false).IsSound := by
  have distinct := h.distinct
  cases h with
  | absent content _ =>
    apply IsSound.absent
    · rw [content_refreshed, content]
    · exact checksums_absent a content false
  | @present text content _ current =>
    have checksums := checksums_same a content
    apply IsSound.present ((content_refreshed a false).trans content)
    · rw [checksums]
      exact Checksum.isAscending_sort (Keyed.nodup_keys_upsert distinct _)
    · intro c hc
      rw [checksums, Checksum.mem_sort] at hc
      rcases Keyed.mem_of_mem_upsert hc with rfl | old
      · rfl
      · exact current c old

theorem checksum?_of_changed (content : f.content = some text) (b : DigestAlgorithm) :
    (f.refreshed a true).checksum? b = if a = b then some (a.digest text) else none := by
  rw [checksum?, checksums_changed a content]
  by_cases same : a = b <;> simp [Checksum.ofText, same]

theorem checksum?_of_same (content : f.content = some text) (b : DigestAlgorithm) :
    (f.refreshed a false).checksum? b = if a = b then some (a.digest text) else f.checksum? b := by
  rw [checksum?, checksums_same a content, Checksum.find?_sort, Keyed.find?_upsert]
  by_cases same : a = b
  · simp [Checksum.ofText, same]
  · simp [Checksum.ofText, same, checksum?]

end Refreshed

end SourceFile

/-! ## Merging -/

namespace Merge

open SourceFile

variable {existing fetched : List SourceFile}

/-- A joined file either has the content that it had on record, or it is new or its content has changed. -/
theorem joined_cases (existing : List SourceFile) (a : DigestAlgorithm) (new : SourceFile) :
    (∃ old f : SourceFile, find? new.key existing = some old ∧ old.content = new.content ∧
      f.content = old.content ∧ f.checksums = old.checksums ∧ joined a existing new = f.refreshed a false) ∨
    ((∀ old, find? new.key existing = some old → old.content ≠ new.content) ∧
      ∃ f : SourceFile, f.content = new.content ∧ joined a existing new = f.refreshed a true) := by
  rw [joined]
  cases found : find? new.key existing with
  | none =>
    right
    constructor
    · intro old h
      exact absurd h.symm (Option.some_ne_none old)
    · exact ⟨{ new with id := new.key.fileId }, rfl, rfl⟩
  | some old =>
    by_cases same : old.content = new.content
    · left
      refine ⟨old, { old with content := new.content, path := new.path }, rfl, same, same.symm, rfl, ?_⟩
      simp only [kept, same, ne_eq, not_true_eq_false, decide_false]
    · right
      constructor
      · intro old' h
        rwa [← Option.some.inj h]
      · refine ⟨{ old with content := new.content, path := new.path }, rfl, ?_⟩
        simp only [kept, decide_eq_true same]

/-- A file that is joined of sound ones is sound, whatever checksums were fetched with it. -/
theorem isSound_joined (sound : ∀ f ∈ existing, f.IsSound) (a : DigestAlgorithm) (new : SourceFile) :
    (joined a existing new).IsSound := by
  obtain ⟨old, f, found, -, content, checksums, e⟩ | ⟨-, f, -, e⟩ := joined_cases existing a new
  · rw [e]
    exact ((sound old (find?_eq_some found).1).congr content checksums).refreshed a
  · rw [e]
    exact isSound_of_changed a

theorem isSound_merge (sound : ∀ f ∈ existing, f.IsSound) (fetched : List SourceFile) (a : DigestAlgorithm) :
    ∀ f ∈ (merge existing fetched a).files, f.IsSound := by
  intro f hf
  obtain ⟨new, -, rfl⟩ := mem_files hf
  exact isSound_joined (fun g hg => sound g (Ascending.mem_of_mem_lastOf hg)) a new

theorem isSound_afterRounds {files : List SourceFile} (sound : ∀ f ∈ files, f.IsSound) (rounds : List Round) :
    ∀ f ∈ afterRounds files rounds, f.IsSound := by
  induction rounds generalizing files with
  | nil => exact sound
  | cons r rounds ih => exact ih (isSound_merge sound r.fetched r.algorithm)

theorem distinct_afterRounds {files : List SourceFile} (distinct : (files.map SourceFile.key).Nodup)
    (rounds : List Round) : ((afterRounds files rounds).map SourceFile.key).Nodup := by
  induction rounds generalizing files with
  | nil => exact distinct
  | cons r rounds ih => exact ih (isAscending_files files r.fetched r.algorithm).nodup_keys

section Carried

variable {a b : DigestAlgorithm} {new f : SourceFile} {text : String}

/-- The checksum of the algorithm of a merge is there. -/
theorem checksum?_joined (content : new.content = some text) :
    (joined a existing new).checksum? a = some (a.digest text) := by
  obtain ⟨old, f, -, same, same', -, e⟩ | ⟨-, f, same, e⟩ := joined_cases existing a new
  · rw [e, checksum?_of_same a (same'.trans (same.trans content)), if_pos rfl]
  · rw [e, checksum?_of_changed a (same.trans content), if_pos rfl]

/-- The checksum of another algorithm is there if it was there for the same content. -/
theorem isSome_checksum?_joined (content : new.content = some text) (other : a ≠ b) :
    ((joined a existing new).checksum? b).isSome = true ↔
      ∃ old, find? new.key existing = some old ∧ old.content = new.content ∧ (old.checksum? b).isSome = true := by
  obtain ⟨old, f, found, same, same', checksums, e⟩ | ⟨changed, f, same, e⟩ := joined_cases existing a new
  · rw [e, checksum?_of_same a (same'.trans (same.trans content)), if_neg other, checksum?, checksums]
    constructor
    · intro carried
      exact ⟨old, found, same, carried⟩
    · rintro ⟨old', found', -, carried⟩
      rw [found, Option.some.injEq] at found'
      rwa [← found'] at carried
  · rw [e, checksum?_of_changed a (same.trans content), if_neg other]
    constructor
    · intro carried
      exact nomatch carried
    · rintro ⟨old, found, same, -⟩
      exact absurd same (changed old found)

theorem last?_eq_some_iff (distinct : (existing.map SourceFile.key).Nodup) {k : FileKey} :
    last? k existing = some f ↔ f ∈ existing ∧ f.key = k := by
  rw [last?, find?, Keyed.find?_reverse distinct, Keyed.find?_eq_some_iff distinct]

end Carried

/-- Sound files stay sound from merge to merge. After each merge a file with content has the checksum of that merge's
algorithm, and one of another algorithm if and only if it had one before and had the same content. -/
theorem checksums_current {files : List SourceFile} (sound : ∀ f ∈ files, f.IsSound)
    (distinct : (files.map SourceFile.key).Nodup) (rounds : List Round) (last : Round) :
    ∀ f ∈ afterRounds files (rounds ++ [last]), f.IsSound ∧ ∀ text, f.content = some text →
      f.checksum? last.algorithm = some (last.algorithm.digest text) ∧
      ∀ b, b ≠ last.algorithm → ((f.checksum? b).isSome = true ↔
        ∃ g ∈ afterRounds files rounds, g.key = f.key ∧ g.content = f.content ∧ (g.checksum? b).isSome = true) := by
  intro f hf
  refine ⟨isSound_afterRounds sound _ f hf, fun text content => ?_⟩
  rw [afterRounds_append] at hf
  obtain ⟨new, -, rfl⟩ := mem_files hf
  rw [content_joined] at content
  refine ⟨checksum?_joined content, fun b other => ?_⟩
  rw [isSome_checksum?_joined content other.symm, key_joined, content_joined]
  simp only [find?_current, last?_eq_some_iff (distinct_afterRounds distinct rounds), and_assoc]

namespace Sample

def now : Timestamp := ⟨"2025-06-01T00:00:00Z", by decide +kernel⟩

def file (content : Option String) (checksums : List Checksum) : SourceFile :=
  { SourceFile.fetched now .wdl "m" "/m" "" with content := content, checksums := checksums }

def stored : List SourceFile := [file (some "x") [Checksum.ofText .sha512 "x"]]

/-- The file is fetched with a wrong checksum, then without content, then with other content. -/
def rounds : List Round :=
  [⟨[file (some "x") [⟨.sha256, "0"⟩]], .sha256⟩, ⟨[file none []], .sha512⟩, ⟨[file (some "y") []], .sha512⟩]

def last : Round := ⟨[file (some "y") [⟨.sha512, "0"⟩]], .sha256⟩

end Sample

theorem sample_checksums_current : (∀ f ∈ Sample.stored, f.IsSound) ∧ (Sample.stored.map SourceFile.key).Nodup ∧
    (afterRounds Sample.stored (Sample.rounds ++ [Sample.last])).length = 1 ∧
    ∀ f ∈ afterRounds Sample.stored (Sample.rounds ++ [Sample.last]), f.IsSound ∧
      f.checksum? .sha256 = some (DigestAlgorithm.sha256.digest "y") ∧ (f.checksum? .sha512).isSome = true := by
  have sound : ∀ f ∈ Sample.stored, f.IsSound := by
    intro f hf
    rw [Sample.stored, List.mem_singleton] at hf
    rw [hf]
    apply IsSound.present (show _ = some "x" from rfl)
    · exact List.pairwise_singleton _ _
    · intro c hc
      rw [List.mem_singleton.mp hc]
      rfl
  have distinct : (Sample.stored.map SourceFile.key).Nodup := List.pairwise_singleton _ _
  have carried : ∀ f ∈ afterRounds Sample.stored (Sample.rounds ++ [Sample.last]), f.content = some "y" ∧
      ∃ g ∈ afterRounds Sample.stored Sample.rounds, g.key = f.key ∧ g.content = f.content ∧
        (g.checksum? .sha512).isSome = true := by decide +kernel
  refine ⟨sound, distinct, by decide +kernel, fun f hf => ?_⟩
  obtain ⟨stillSound, checksums⟩ := checksums_current sound distinct Sample.rounds Sample.last f hf
  obtain ⟨fresh, others⟩ := checksums "y" (carried f hf).1
  exact ⟨stillSound, fresh, (others .sha512 (by decide)).mpr (carried f hf).2⟩

end Merge

end WorkflowCatalog
