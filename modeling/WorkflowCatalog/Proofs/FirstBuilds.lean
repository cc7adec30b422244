import WorkflowCatalog.Proofs.Clock
import WorkflowCatalog.Proofs.Snapshots

/-!
# Versions that are built for the first time

The first build of a version goes by its source alone. The entry only has a say in how the path of the descriptor is
kept, in full or as the default of the entry, and the time is only marked on the files. Where the remote answers,
nothing keeps a version from being built.
-/
namespace WorkflowCatalog

open Fetch

/-- A version as the catalog shows it: with the path of its descriptor, wherever that is kept, and apart from the times
at which files were created. -/
def Version.shown (t : Timestamp) (entryPath : String) (v : Version) : Version :=
  { v.stamped t with descriptorPath := some (v.effectivePath entryPath) }

/-! ## Nothing fails -/

theorem foldlM_eq_ok {ε α β : Type} {f : β → α → Except ε β} (h : ∀ b a, ∃ b', f b a = .ok b') (b : β) (xs : List α) :
    ∃ b', xs.foldlM f b = .ok b' := by
  induction xs generalizing b with
  | nil => exact ⟨b, rfl⟩
  | cons a xs ih =>
    obtain ⟨next, first⟩ := h b a
    rw [List.foldlM_cons, first]
    exact ih next

section Answers

variable {extract : String → String → List ImportRef} {fetch : String → Except SyncError (Option String)}
  {now : Timestamp} (answers : ∀ path, ∃ found, fetch path = .ok found)
include answers

theorem Resolution.follow_eq_ok (importer : String) (r : Resolution) (i : ImportRef) :
    ∃ r', follow fetch now importer r i = .ok r' := by
  unfold follow
  split
  · exact ⟨_, rfl⟩
  · dsimp only
    split
    · exact ⟨_, rfl⟩
    · obtain ⟨found, hf⟩ := answers (destination importer (Path.dropFileScheme i.path))
      rw [hf]
      cases found <;> exact ⟨_, rfl⟩

theorem Resolution.levels_eq_ok (depth : Nat) (r : Resolution) : ∃ r', levels extract fetch now depth r = .ok r' := by
  have file (r : Resolution) (file : String × String) : ∃ r', followFile extract fetch now r file = .ok r' :=
    foldlM_eq_ok (follow_eq_ok answers file.1) r _
  induction depth generalizing r with
  | zero => exact ⟨r, rfl⟩
  | succ depth ih =>
    unfold levels
    split
    · exact ⟨r, rfl⟩
    · obtain ⟨next, level⟩ := foldlM_eq_ok file { r with queue := [] } r.queue
      rw [level]
      exact ih next

theorem resolveImports_eq_ok (depth : Nat) (path content : String) :
    ∃ resolved, resolveImports extract fetch now depth path content = .ok resolved := by
  have walks : ∃ r, Resolution.levels extract fetch now depth (.start (Path.normalize path) content) = .ok r :=
    Resolution.levels_eq_ok answers depth _
  obtain ⟨r, walked⟩ := walks
  rw [resolveImports, walked]
  exact ⟨_, rfl⟩

end Answers

namespace Build

variable {c : Context} {repository reference : String}

section Answers

variable (answers : c.world.remote.Answers repository reference)
include answers

theorem descriptorFiles_eq_ok (path : String) (l : Language) (manifestText : String) (checks : List Validation) :
    ∃ found, (descriptorFiles c repository reference path l manifestText checks).answer = .ok found := by
  have primary : ∃ found, (primaryText c repository reference path l manifestText).answer = .ok found := by
    unfold primaryText
    split
    · exact ⟨_, rfl⟩
    · rw [answer_text]
      exact answers path
  obtain ⟨found, hf⟩ := primary
  rw [answer_descriptorFiles, hf]
  cases found with
  | none => exact ⟨_, rfl⟩
  | some text =>
    have followed : ∃ resolved, resolveImports (l.importsFrom path) (c.world.remote.text repository reference) c.now
        c.options.maxImportDepth path text = .ok resolved := resolveImports_eq_ok answers _ _ _
    obtain ⟨resolved, hr⟩ := followed
    simp only [bind, Except.bind, hr]
    exact ⟨_, rfl⟩

theorem testFiles_eq_ok (type : FileType) (paths : List String) (checks : List Validation) :
    ∃ found, (testFiles c repository reference type paths checks).answer = .ok found := by
  induction paths generalizing checks with
  | nil => exact ⟨_, rfl⟩
  | cons path paths ih =>
    have steady (checks : List Validation) := steady_testFiles c repository reference type paths checks
    obtain ⟨found, hf⟩ := answers (Path.normalize path)
    unfold testFiles
    dsimp only
    rw [answer_bind (steady_text c _ _ _) fun found => by
      cases found with
      | none => exact steady _
      | some text => exact steady_bind (steady _) fun _ => steady_pure _, answer_text, hf]
    cases found with
    | none => exact ih _
    | some text =>
      obtain ⟨rest, hr⟩ := ih checks
      change ∃ found, (testFiles c repository reference type paths checks >>= _).answer = _
      rw [answer_bind (steady _) fun _ => steady_pure _, hr]
      exact ⟨_, rfl⟩

theorem parameterFiles_eq_ok (l : Language) (paths : List String) (checks : List Validation) :
    ∃ found, (parameterFiles c repository reference l paths checks).answer = .ok found := by
  unfold parameterFiles
  cases l.testType? with
  | none => exact ⟨_, rfl⟩
  | some type =>
    obtain ⟨found, hf⟩ := testFiles_eq_ok answers type paths checks
    dsimp only
    rw [answer_bind (steady_testFiles c _ _ _ _ _) fun _ => steady_pure _, hf]
    exact ⟨_, rfl⟩

end Answers

theorem collect_eq_ok {e : Entry} {s : VersionSource}
    (answers : c.world.remote.Answers e.path.repositoryPath s.remote.name)
    (supported : c.languages.contains e.language = true) (v : Version) :
    ∃ found, (collect c e v s).answer = .ok found := by
  obtain ⟨⟨files, checks⟩, hd⟩ := descriptorFiles_eq_ok answers
    (Path.normalize (v.effectivePath e.defaultDescriptorPath)) e.language s.manifestText (Validation.pass [] .manifest)
  obtain ⟨tests, ht⟩ := parameterFiles_eq_ok answers e.language v.testParameterPaths checks
  unfold collect gather
  dsimp only
  rw [if_pos supported, answer_bind (steady_descriptorFiles c _ _ _ _ _ _) fun _ =>
    steady_bind (steady_parameterFiles c _ _ _ _ _) fun _ => steady_pure _, hd]
  change ∃ found, (parameterFiles c _ _ _ _ _ >>= _).answer = _
  rw [answer_bind (steady_parameterFiles c _ _ _ _ _) fun _ => steady_pure _, ht]
  exact ⟨_, rfl⟩

/-! ## The first build of a version -/

section First

variable {e f : Entry} {s : VersionSource} {t : Timestamp}

theorem outline_of_absent (absent : e.version? s.remote.name = none) : outline e s =
    { Version.ofRemote s.remote e.language with
      commitId := some s.remote.commitId
      lastModified := s.remote.lastModified
      descriptorPath := if s.declaration.primaryDescriptorPath = e.defaultDescriptorPath then none
        else some s.declaration.primaryDescriptorPath
      testParameterPaths := s.declaration.testParameterFiles } := by
  rw [outline, absent]
  rfl

/-- A version that is not there yet is built if the remote answers. -/
theorem version_eq_ok (language : s.declaration.language = e.language)
    (supported : c.languages.contains e.language = true) (absent : e.version? s.remote.name = none)
    (answers : c.world.remote.Answers e.path.repositoryPath s.remote.name) : ∃ v, (version c e s).answer = .ok v := by
  obtain ⟨found, collected⟩ := collect_eq_ok answers supported (outline e s)
  rw [answer_version language (by rw [outline_of_absent absent]; rfl), collected]
  exact ⟨_, rfl⟩

/-- A version that is not there yet comes to the same for any entry at the address. -/
theorem shown_version (he : s.declaration.language = e.language) (hf : s.declaration.language = f.language)
    (path : e.path = f.path) (absent_e : e.version? s.remote.name = none) (absent_f : f.version? s.remote.name = none) :
    (version c e s).answer.map (Version.shown t e.defaultDescriptorPath) =
      (version c f s).answer.map (Version.shown t f.defaultDescriptorPath) := by
  have language : e.language = f.language := he.symm.trans hf
  have effective : (outline e s).effectivePath e.defaultDescriptorPath =
      (outline f s).effectivePath f.defaultDescriptorPath := by
    rw [effectivePath_outline, effectivePath_outline]
  have collected : collect c e (outline e s) s = collect c f (outline f s) s :=
    collect_congr language path effective (by rw [outline_of_absent absent_e, outline_of_absent absent_f]) s
  rw [answer_version he (by rw [outline_of_absent absent_e]; rfl),
    answer_version hf (by rw [outline_of_absent absent_f]; rfl), collected]
  cases (collect c f (outline f s) s).answer with
  | error err => rfl
  | ok found =>
    simp only [Except.map, Except.ok.injEq]
    have shown (g : Entry) (absent : g.version? s.remote.name = none) :
        Version.shown t g.defaultDescriptorPath { outline g s with
          sourceFiles := (merge (outline g s).sourceFiles found.1 c.options.algorithm).files
          validations := Validation.aggregate (outline g s).validations found.2 } =
        { Version.ofRemote s.remote g.language with
          commitId := some s.remote.commitId
          lastModified := s.remote.lastModified
          descriptorPath := some s.declaration.primaryDescriptorPath
          testParameterPaths := s.declaration.testParameterFiles
          sourceFiles := (merge [] found.1 c.options.algorithm).files.map (SourceFile.stamped t)
          validations := Validation.aggregate [] found.2 } := by
      rw [← effectivePath_outline g s, Version.shown, Version.effectivePath, outline_of_absent absent]
      rfl
    rw [shown e absent_e, shown f absent_f, language]

/-- What the catalog shows of a version that is built from a source, where there is none yet. -/
def first? (c : Context) (t : Timestamp) (p : EntryPath) (s : VersionSource) : Option Version :=
  ((version c (.ofDeclaration p s.declaration) s).answer.map
    (Version.shown t s.declaration.primaryDescriptorPath)).toOption

theorem first?_of_answer {now : Timestamp} {v : Version} (language : s.declaration.language = e.language)
    (absent : e.version? s.remote.name = none) (answer : (version (c.withClock now) e s).answer = .ok v) :
    first? c t e.path s = some (v.shown t e.defaultDescriptorPath) := by
  have marked : (version (c.withClock t) (Entry.stamped t e) s).answer = .ok (v.stamped t) := by
    have again := version_stamped (t := t) (c.withClock now) e s
    rw [answer] at again
    exact again
  rw [version_stamped] at marked
  have same : (version c e s).answer.map (Version.shown t e.defaultDescriptorPath) =
      .ok (v.shown t e.defaultDescriptorPath) := by
    cases built : (version c e s).answer with
    | error err =>
      rw [built] at marked
      exact nomatch marked
    | ok w =>
      rw [built] at marked
      have stamps : w.stamped t = v.stamped t := Except.ok.inj marked
      exact congrArg (fun u : Version => Except.ok { u with
        descriptorPath := some (u.effectivePath e.defaultDescriptorPath) }) stamps
  have first := shown_version (c := c) (t := t) language (show s.declaration.language =
    (Entry.ofDeclaration e.path s.declaration).language from rfl) rfl absent rfl
  rw [same] at first
  unfold first?
  exact congrArg Except.toOption first.symm

end First

end Build

end WorkflowCatalog
