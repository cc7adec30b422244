import WorkflowCatalog.Proofs.Execution

/-!
# Building versions

What comes of building a version depends on the remote alone and not on what the call did before. A version
that is built has the name of its reference and the lock of the version on record, which is never a frozen one.
-/
namespace WorkflowCatalog

open Fetch

namespace Fetch

/-- A kind of reading such that whatever is put together of such readings is one as well. -/
structure Closed (P : {α : Type} → Fetch α → Prop) : Prop where
  pure : ∀ {α : Type} (a : α), P (pure a)
  throw : ∀ {α : Type} (e : SyncError), P (throw e : Fetch α)
  bind : ∀ {α β : Type} {f : Fetch α} {g : α → Fetch β}, P f → (∀ a, P (g a)) → P (f >>= g)

theorem closed_steady : Closed IsSteady := ⟨steady_pure, steady_throw, steady_bind⟩

namespace Closed

variable {P : {α : Type} → Fetch α → Prop} (C : Closed P) {α β : Type}
include C

theorem ofExcept (r : Except SyncError α) : P (Fetch.ofExcept r) := by
  cases r with
  | error e => exact C.throw e
  | ok a => exact C.pure a

theorem foldlM {f : β → α → Fetch β} (h : ∀ b a, P (f b a)) (b : β) (xs : List α) : P (xs.foldlM f b) := by
  induction xs generalizing b with
  | nil => exact C.pure b
  | cons a xs ih => exact C.bind (h b a) ih

section Imports

variable {extract : String → String → List ImportRef} {fetch : String → Fetch (Option String)} {now : Timestamp}
  (h : ∀ path, P (fetch path))
include h

theorem follow (importer : String) (r : Resolution) (i : ImportRef) : P (Resolution.follow fetch now importer r i) := by
  unfold Resolution.follow
  split
  · exact C.pure _
  · dsimp only
    split
    · exact C.pure _
    · refine C.bind (h _) fun found => ?_
      cases found <;> exact C.pure _

theorem levels (depth : Nat) (r : Resolution) : P (Resolution.levels extract fetch now depth r) := by
  induction depth generalizing r with
  | zero => exact C.pure r
  | succ depth ih =>
    unfold Resolution.levels
    split
    · exact C.pure r
    · exact C.bind (C.foldlM (fun r _ => C.foldlM (C.follow h _) r _) _ _) ih

theorem resolveImports (depth : Nat) (path content : String) :
    P (WorkflowCatalog.resolveImports extract fetch now depth path content) :=
  C.bind (C.levels h depth _) fun _ => C.pure _

end Imports

section Builds

variable {c : Context} {repository reference : String} (h : ∀ path, P (Fetch.text c repository reference path))
include h

theorem primaryText (path : String) (l : Language) (manifestText : String) :
    P (Build.primaryText c repository reference path l manifestText) := by
  unfold Build.primaryText
  split
  · exact C.pure _
  · exact h path

theorem descriptorFiles (path : String) (l : Language) (manifestText : String) (checks : List Validation) :
    P (Build.descriptorFiles c repository reference path l manifestText checks) := by
  refine C.bind (C.primaryText h _ _ _) fun content => ?_
  cases content with
  | none => exact C.pure _
  | some text => exact C.bind (C.resolveImports h _ _ _) fun _ => C.pure _

theorem testFiles (type : FileType) (paths : List String) (checks : List Validation) :
    P (Build.testFiles c repository reference type paths checks) := by
  induction paths generalizing checks with
  | nil => exact C.pure _
  | cons path paths ih =>
    refine C.bind (h _) fun found => ?_
    cases found with
    | none => exact ih _
    | some text => exact C.bind (ih _) fun _ => C.pure _

theorem parameterFiles (l : Language) (paths : List String) (checks : List Validation) :
    P (Build.parameterFiles c repository reference l paths checks) := by
  unfold Build.parameterFiles
  split
  · exact C.pure _
  · exact C.bind (C.testFiles h _ _ _) fun _ => C.pure _

end Builds

section Versions

variable {c : Context} {e : Entry} {s : VersionSource}
  (h : ∀ path, P (Fetch.text c e.path.repositoryPath s.remote.name path))
include h

theorem gather (v : Version) : P (Build.gather c e v s) := by
  refine C.bind (C.descriptorFiles h _ _ _ _) fun _ => ?_
  exact C.bind (C.parameterFiles h _ _ _) fun _ => C.pure _

theorem collect (v : Version) : P (Build.collect c e v s) := by
  unfold Build.collect
  split
  · exact C.gather h v
  · exact C.throw _

theorem revise : P (Build.revise c e s) := by
  refine C.bind (C.ofExcept _) fun _ => ?_
  exact C.bind (C.collect h _) fun _ => C.pure _

/-- A build does nothing but read files of its own reference. -/
theorem version : P (Build.version c e s) := by
  unfold Build.version
  dsimp only
  split
  · exact C.revise h
  · exact C.throw _

end Versions

end Closed

end Fetch

section Steady

variable {α β : Type}

theorem steady_foldlM {f : β → α → Fetch β} (h : ∀ b a, IsSteady (f b a)) (b : β) (xs : List α) :
    IsSteady (xs.foldlM f b) := closed_steady.foldlM h b xs

variable {extract : String → String → List ImportRef} {fetch : String → Fetch (Option String)} {now : Timestamp}

theorem Resolution.steady_follow (h : ∀ path, IsSteady (fetch path)) (importer : String) (r : Resolution)
    (i : ImportRef) : IsSteady (follow fetch now importer r i) := closed_steady.follow h importer r i

theorem Resolution.steady_levels (h : ∀ path, IsSteady (fetch path)) (depth : Nat) (r : Resolution) :
    IsSteady (levels extract fetch now depth r) := closed_steady.levels h depth r

theorem steady_resolveImports (h : ∀ path, IsSteady (fetch path)) (depth : Nat) (path content : String) :
    IsSteady (resolveImports extract fetch now depth path content) := closed_steady.resolveImports h depth path content

end Steady

namespace Build

variable (c : Context)

theorem steady_primaryText (repository reference path : String) (l : Language) (manifestText : String) :
    IsSteady (primaryText c repository reference path l manifestText) :=
  closed_steady.primaryText (steady_text c repository reference) _ _ _

theorem steady_descriptorFiles (repository reference path : String) (l : Language) (manifestText : String)
    (checks : List Validation) : IsSteady (descriptorFiles c repository reference path l manifestText checks) :=
  closed_steady.descriptorFiles (steady_text c repository reference) _ _ _ _

theorem steady_testFiles (repository reference : String) (type : FileType) (paths : List String)
    (checks : List Validation) : IsSteady (testFiles c repository reference type paths checks) :=
  closed_steady.testFiles (steady_text c repository reference) _ _ _

theorem steady_parameterFiles (repository reference : String) (l : Language) (paths : List String)
    (checks : List Validation) : IsSteady (parameterFiles c repository reference l paths checks) :=
  closed_steady.parameterFiles (steady_text c repository reference) _ _ _

theorem steady_collect (e : Entry) (v : Version) (s : VersionSource) : IsSteady (collect c e v s) :=
  closed_steady.collect (steady_text c _ _) v

theorem steady_version (e : Entry) (s : VersionSource) : IsSteady (version c e s) :=
  closed_steady.version (steady_text c _ _)

@[simp] theorem name_outline (e : Entry) (s : VersionSource) : (outline e s).name = s.remote.name := by
  unfold outline
  cases h : e.version? s.remote.name with
  | none => rfl
  | some v => simpa using List.find?_some h

/-- The descriptor that counts for a version is the one that is declared for it. -/
theorem effectivePath_outline (e : Entry) (s : VersionSource) :
    (outline e s).effectivePath e.defaultDescriptorPath = s.declaration.primaryDescriptorPath := by
  unfold outline Version.effectivePath
  dsimp only
  split <;> simp [*]

/-- A version that was built is its outline with other files and judgments, and was not frozen. -/
structure IsBuilt (e : Entry) (s : VersionSource) (v : Version) (files : List SourceFile)
    (checks : List Validation) : Prop where
  language : s.declaration.language = e.language
  mutable : (outline e s).frozen = false
  collected : (collect c e (outline e s) s).answer = .ok (files, checks)
  eq : v = { outline e s with
    sourceFiles := (merge (outline e s).sourceFiles files c.options.algorithm).files
    validations := Validation.aggregate (outline e s).validations checks }

variable {c} in
theorem isBuilt_of_answer {e : Entry} {s : VersionSource} {v : Version} (h : (version c e s).answer = .ok v) :
    ∃ files checks, IsBuilt c e s v files checks := by
  unfold version at h
  dsimp only at h
  split at h
  · rename_i hl
    rw [revise, answer_bind (steady_ofExcept _) fun _ => steady_bind (steady_collect c e _ s) fun _ => steady_pure _,
      answer_ofExcept] at h
    cases hf : (outline e s).frozen with
    | true =>
      rw [show (outline e s).ensureMutable e.path = .error _ from if_pos hf] at h
      simp [bind, Except.bind] at h
    | false =>
      rw [show (outline e s).ensureMutable e.path = .ok () from if_neg (by simp [hf])] at h
      change (collect c e (outline e s) s >>= _).answer = _ at h
      rw [answer_bind (steady_collect c e _ s) fun _ => steady_pure _] at h
      cases hc : (collect c e (outline e s) s).answer with
      | error err => simp [hc, bind, Except.bind] at h
      | ok found =>
        rw [hc] at h
        exact ⟨found.1, found.2, hl, hf, hc, (Except.ok.inj h).symm⟩
  · simp at h

variable {c}

theorem name_of_answer {e : Entry} {s : VersionSource} {v : Version} (h : (version c e s).answer = .ok v) :
    v.name = s.remote.name := by
  obtain ⟨files, checks, built⟩ := isBuilt_of_answer h
  rw [built.eq]
  exact name_outline e s

theorem commitId_of_answer {e : Entry} {s : VersionSource} {v : Version} (h : (version c e s).answer = .ok v) :
    v.commitId = some s.remote.commitId := by
  obtain ⟨files, checks, built⟩ := isBuilt_of_answer h
  rw [built.eq]
  rfl

/-- Of a version the path and the test parameters count for what is collected, and of an entry its address and
language. -/
theorem collect_congr {e f : Entry} {v w : Version} (language : e.language = f.language) (path : e.path = f.path)
    (effective : v.effectivePath e.defaultDescriptorPath = w.effectivePath f.defaultDescriptorPath)
    (tests : v.testParameterPaths = w.testParameterPaths) (s : VersionSource) : collect c e v s = collect c f w s := by
  simp only [collect, gather, language, path, effective, tests]

/-- What comes of a build is what is collected, put in the place of what there was. -/
theorem answer_version {e : Entry} {s : VersionSource} (language : s.declaration.language = e.language)
    (mutable : (outline e s).frozen = false) :
    (version c e s).answer = (collect c e (outline e s) s).answer.map fun found => { outline e s with
      sourceFiles := (merge (outline e s).sourceFiles found.1 c.options.algorithm).files
      validations := Validation.aggregate (outline e s).validations found.2 } := by
  have unlocked : (outline e s).ensureMutable e.path = .ok () := if_neg (by simp [mutable])
  rw [version, if_pos language, revise,
    answer_bind (steady_ofExcept _) fun _ => steady_bind (steady_collect c e _ s) fun _ => steady_pure _,
    answer_ofExcept, unlocked]
  change (collect c e (outline e s) s >>= _).answer = _
  rw [answer_bind (steady_collect c e _ s) fun _ => steady_pure _]
  rfl

end Build

end WorkflowCatalog
