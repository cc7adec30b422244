import WorkflowCatalog.Proofs.Clock
import WorkflowCatalog.Proofs.Rounds

/-!
# Building a version again

A version that was just built is its own outline, its files are those that would be fetched, and its judgments are
those that would be passed. So to build it again, at whatever time, gives the same version, and a build that has
failed fails again.
-/
namespace WorkflowCatalog

open Fetch

variable {t : Timestamp}

/-- To pass the same judgments again changes nothing. -/
theorem Validation.aggregate_again (existing checks : List Validation) :
    aggregate (aggregate existing checks) checks = aggregate existing checks :=
  Ascending.lastOf_lastOf_append rank existing checks

namespace Build

variable {c : Context} {e f : Entry} {s : VersionSource} {v : Version} {files : List SourceFile}
  {checks : List Validation}

/-- A version that was built is as its source says, so its outline is the version itself. -/
theorem IsBuilt.outline_eq (h : IsBuilt c e s v files checks) (core : f.SameCore e)
    (found : f.version? s.remote.name = some v) : outline f s = v := by
  rw [outline, found, h.eq, core.defaultDescriptorPath]
  rfl

/-- A version that was built is built as it is, at whatever time. -/
theorem answer_again (answer : (version c e s).answer = .ok v) (core : f.SameCore e)
    (found : f.version? s.remote.name = some v) : (version (c.withClock t) f s).answer = .ok v := by
  obtain ⟨files, checks, h⟩ := isBuilt_of_answer answer
  have outline := h.outline_eq core found
  have mutable : (Build.outline f s).frozen = false := by
    rw [outline, h.eq]
    exact h.mutable
  have collected : (collect (c.withClock t) f v s).answer = .ok (files.map (SourceFile.stamped t), checks) := by
    have effective : v.effectivePath f.defaultDescriptorPath =
        (Build.outline e s).effectivePath e.defaultDescriptorPath := by
      rw [h.eq, core.defaultDescriptorPath]
      rfl
    have same : collect c f v s = collect c e (Build.outline e s) s :=
      collect_congr core.language core.path effective (by rw [h.eq]) s
    rw [collect_withClock, same, h.collected]
    rfl
  have sourceFiles : (merge v.sourceFiles (files.map (SourceFile.stamped t)) c.options.algorithm).files =
      v.sourceFiles := by
    have same : (files.map (SourceFile.stamped t)).map SourceFile.remotePart = files.map SourceFile.remotePart := by
      rw [List.map_map]
      rfl
    rw [h.eq]
    exact Merge.files_again same
  have validations : Validation.aggregate v.validations checks = v.validations := by
    rw [h.eq]
    exact Validation.aggregate_again _ _
  rw [answer_version (h.language.trans core.language.symm) mutable, outline, collected]
  change Except.ok { v with
    sourceFiles := (merge v.sourceFiles (files.map (SourceFile.stamped t)) c.options.algorithm).files
    validations := Validation.aggregate v.validations checks } = _
  rw [sourceFiles, validations]

/-- Whether a build fails, and how, does not depend on the time. -/
theorem answer_error_withClock {err : SyncError} (answer : (version c e s).answer = .error err) :
    (version (c.withClock t) e s).answer = .error err := by
  have marked := version_stamped (t := t) c e s
  have same : _ = (version (c.withClock t) e s).answer.map (Version.stamped t) := version_stamped (c.withClock t) e s
  rw [answer] at marked
  change (version (c.withClock t) (e.stamped t) s).answer = _ at same
  rw [marked] at same
  cases h : (version (c.withClock t) e s).answer with
  | error err' =>
    rw [h] at same
    exact congrArg _ (Except.error.inj same).symm
  | ok v =>
    rw [h] at same
    exact nomatch same

end Build

end WorkflowCatalog
