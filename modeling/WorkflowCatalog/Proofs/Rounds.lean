import WorkflowCatalog.Proofs.Fates

/-!
# Merging again and again

To merge the same files again changes nothing. Of several merges one after the other, only the last one decides which
files there are, with which paths and contents.
-/
namespace WorkflowCatalog

/-- What a file has from the repository: its key, its path and its content. -/
def SourceFile.remotePart (f : SourceFile) : FileKey × String × Option String := (f.key, f.path, f.content)

theorem SourceFile.remotePart_eq_iff {f g : SourceFile} :
    f.remotePart = g.remotePart ↔ f.key = g.key ∧ f.path = g.path ∧ f.content = g.content := by
  simp only [remotePart, Prod.mk.injEq]

namespace Merge

/-- The files that were fetched at one time, and the algorithm of their checksums. -/
structure Round where
  fetched : List SourceFile
  algorithm : DigestAlgorithm

/-- What is left of the files on record after several merges. -/
def afterRounds (files : List SourceFile) (rounds : List Round) : List SourceFile :=
  rounds.foldl (fun files r => (merge files r.fetched r.algorithm).files) files

theorem afterRounds_append (files : List SourceFile) (rounds : List Round) (last : Round) :
    afterRounds files (rounds ++ [last]) = (merge (afterRounds files rounds) last.fetched last.algorithm).files := by
  rw [afterRounds, List.foldl_append, List.foldl_cons, List.foldl_nil, afterRounds]

section Again

variable {existing fetched again : List SourceFile} {a : DigestAlgorithm}

theorem remotePart_joined (f : SourceFile) : (joined a existing f).remotePart = f.remotePart :=
  SourceFile.remotePart_eq_iff.mpr ⟨key_joined _ _ _, path_joined _ _ _, content_joined _ _ _⟩

/-- What there is after a merge, but for identities and checksums, does not depend on what was on record. -/
theorem remoteParts_files (existing fetched : List SourceFile) (a : DigestAlgorithm) :
    (merge existing fetched a).files.map SourceFile.remotePart =
      (Ascending.firstOf SourceFile.key fetched).map SourceFile.remotePart := by
  rw [merge, List.map_map]
  exact List.map_congr_left fun f _ => remotePart_joined f

/-- Files with the same keys, paths and contents are found for the same keys. -/
theorem find?_of_remoteParts (same : again.map SourceFile.remotePart = fetched.map SourceFile.remotePart)
    (k : FileKey) :
    (find? k again).map SourceFile.remotePart = (find? k fetched).map SourceFile.remotePart := by
  have first (files : List SourceFile) : (find? k files).map SourceFile.remotePart =
      (files.map SourceFile.remotePart).find? fun p => p.1 == k := by
    rw [List.find?_map]
    rfl
  rw [first, first, same]

/-- To fetch the same again changes nothing. -/
theorem files_again (same : again.map SourceFile.remotePart = fetched.map SourceFile.remotePart) :
    (merge (merge existing fetched a).files again a).files = (merge existing fetched a).files := by
  have ascending := isAscending_files existing fetched a
  refine (isAscending_files _ again a).eq_of_find? ascending fun k => ?_
  change find? k _ = find? k _
  have parts := find?_of_remoteParts same k
  rw [find?_files, find?_files, Ascending.lastOf_eq_self ascending]
  cases found : find? k fetched with
  | none =>
    rw [found, Option.map_none, Option.map_eq_none_iff] at parts
    rw [parts]
    rfl
  | some new =>
    rw [found, Option.map_some, Option.map_eq_some_iff] at parts
    obtain ⟨copy, hc, part⟩ := parts
    obtain ⟨key, path, content⟩ := SourceFile.remotePart_eq_iff.mp part
    rw [hc, Option.map_some, Option.map_some, joined_again key content path]
    rw [find?_files, (find?_eq_some found).2, found]
    rfl

/-- Where the same is fetched again, no key is added, updated or removed. -/
theorem fate?_again (existing fetched : List SourceFile) (a : DigestAlgorithm) {k : FileKey} {x : Fate}
    (told : fate? (merge existing fetched a).files fetched k = some x) : x = .unchanged := by
  have last : last? k (merge existing fetched a).files = find? k (merge existing fetched a).files :=
    (isAscending_files existing fetched a).find?_reverse k
  rw [fate?, last, find?_files] at told
  cases found : find? k fetched with
  | none => simp [found] at told
  | some new =>
    simp only [found, Option.map_some, content_joined, if_true, Option.some.injEq] at told
    exact told.symm

theorem isNoop_again (existing fetched : List SourceFile) (a : DigestAlgorithm) :
    (merge (merge existing fetched a).files fetched a).isNoop = true := by
  have told := sorts_keys (merge existing fetched a).files fetched a
  have empty (x : Fate) (other : x ≠ .unchanged) : (merge (merge existing fetched a).files fetched a).keys x = [] :=
    told.eq_nil fun k hk => other (fate?_again existing fetched a hk)
  have added := empty .added (by decide)
  have updated := empty .updated (by decide)
  have removed := empty .removed (by decide)
  simp only [MergeOutcome.keys] at added updated removed
  rw [MergeOutcome.isNoop, added, updated, removed]
  rfl

end Again

/-- What is left under a key is the first of the files that were fetched last, with its path and content. -/
theorem find?_afterRounds (files : List SourceFile) (rounds : List Round) (last : Round) (k : FileKey) :
    (find? k (afterRounds files (rounds ++ [last]))).map SourceFile.remotePart =
      (find? k last.fetched).map SourceFile.remotePart := by
  have part (existing : List SourceFile) : SourceFile.remotePart ∘ joined last.algorithm existing =
      SourceFile.remotePart := funext remotePart_joined
  rw [afterRounds_append, find?_files, Option.map_map, part]

/-- To merge the same files again is of no effect, and of several merges the last one alone decides on keys, paths and
contents: they are those of the files that were fetched last, of which the first of each key counts. -/
theorem merges_settle (existing fetched : List SourceFile) (a b : DigestAlgorithm) (rounds : List Round) (last : Round) :
    (merge (merge existing fetched a).files fetched a).isNoop = true ∧
    (merge (merge existing fetched a).files fetched a).files = (merge existing fetched a).files ∧
    (afterRounds existing (rounds ++ [last])).map SourceFile.remotePart =
      (merge [] last.fetched b).files.map SourceFile.remotePart ∧
    ∀ k, (find? k (afterRounds existing (rounds ++ [last]))).map SourceFile.remotePart =
      (find? k last.fetched).map SourceFile.remotePart := by
  refine ⟨isNoop_again existing fetched a, files_again rfl, ?_, find?_afterRounds existing rounds last⟩
  rw [afterRounds_append, remoteParts_files, remoteParts_files]

end Merge

end WorkflowCatalog
