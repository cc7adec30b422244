import Mathlib.Data.List.Dedup
import WorkflowCatalog.Proofs.Imports

/-!
# The files of a version that was built

They are the manifest, the primary descriptor with the files that its imports lead to, and the test parameter
files, as far as the repository has them. Their kinds and paths tell all of these apart, so each is there once
and with the text that the repository has at its path.
-/
namespace WorkflowCatalog

open Fetch

namespace Build

variable {c : Context} {repository reference : String}

/-! ## How files are collected, and judged -/

theorem descriptorFiles_cases {path manifestText : String} {l : Language} {checks checks' : List Validation}
    {files : List SourceFile}
    (h : (descriptorFiles c repository reference path l manifestText checks).answer = .ok (files, checks')) :
    ((primaryText c repository reference path l manifestText).answer = .ok none ∧ files = [] ∧
        checks' = Validation.pass (Validation.fail checks (.descriptor l) (path ++ " not found")) .imports) ∨
      ∃ text resolved, (primaryText c repository reference path l manifestText).answer = .ok (some text) ∧
        resolveImports (l.importsFrom path) (c.world.remote.text repository reference) c.now c.options.maxImportDepth
          path text = .ok resolved ∧
        files = .fetched c.now l.primaryType path path text :: resolved.files.map Prod.snd ∧
        checks' = judgeImports resolved.missing (judge l path text checks) := by
  have follows (text : String) : IsSteady (resolveImports (l.importsFrom path) (Fetch.text c repository reference) c.now
      c.options.maxImportDepth path text) := steady_resolveImports (steady_text c repository reference) _ _ _
  unfold descriptorFiles at h
  rw [answer_bind (steady_primaryText c _ _ _ _ _) fun found => by
    cases found with
    | none => exact steady_pure _
    | some text => exact steady_bind (follows text) fun _ => steady_pure _] at h
  obtain ⟨found, hf, h⟩ := bind_eq_ok.mp h
  cases found with
  | none =>
    obtain ⟨rfl, rfl⟩ := Prod.mk.inj (Except.ok.inj h)
    exact .inl ⟨hf, rfl, rfl⟩
  | some text =>
    dsimp only at h
    rw [answer_bind (follows text) fun _ => steady_pure _,
      answer_resolveImports (steady_text c repository reference)] at h
    obtain ⟨resolved, hr, h⟩ := bind_eq_ok.mp h
    simp only [answer_text] at hr
    obtain ⟨rfl, rfl⟩ := Prod.mk.inj (Except.ok.inj h)
    exact .inr ⟨text, resolved, hf, hr, rfl, rfl⟩

theorem testFiles_cons_cases {type : FileType} {path : String} {paths : List String} {checks checks' : List Validation}
    {files : List SourceFile}
    (h : (testFiles c repository reference type (path :: paths) checks).answer = .ok (files, checks')) :
    (c.world.remote.text repository reference (Path.normalize path) = .ok none ∧
        (testFiles c repository reference type paths
          (Validation.fail checks .testParameters (path ++ " not found"))).answer = .ok (files, checks')) ∨
      ∃ text rest, c.world.remote.text repository reference (Path.normalize path) = .ok (some text) ∧
        (testFiles c repository reference type paths checks).answer = .ok (rest, checks') ∧
        files = .fetched c.now type path (Path.normalize path) text :: rest := by
  unfold testFiles at h
  dsimp only at h
  rw [answer_bind (steady_text c repository reference _) fun found => by
    cases found with
    | none => exact steady_testFiles c _ _ _ _ _
    | some text => exact steady_bind (steady_testFiles c _ _ _ _ _) fun _ => steady_pure _, answer_text] at h
  obtain ⟨found, hf, h⟩ := bind_eq_ok.mp h
  cases found with
  | none => exact .inl ⟨hf, h⟩
  | some text =>
    dsimp only at h
    rw [answer_bind (steady_testFiles c _ _ _ _ _) fun _ => steady_pure _] at h
    obtain ⟨⟨rest, after⟩, hr, h⟩ := bind_eq_ok.mp h
    obtain ⟨rfl, rfl⟩ := Prod.mk.inj (Except.ok.inj h)
    exact .inr ⟨text, rest, hf, hr, rfl⟩

theorem parameterFiles_cases {l : Language} {paths : List String} {checks checks' : List Validation}
    {files : List SourceFile}
    (h : (parameterFiles c repository reference l paths checks).answer = .ok (files, checks')) :
    (l.testType? = none ∧ files = [] ∧ checks' = checks) ∨
      ∃ type judged, l.testType? = some type ∧
        (testFiles c repository reference type paths checks).answer = .ok (files, judged) ∧
        checks' = Validation.pass judged .testParameters := by
  unfold parameterFiles at h
  split at h
  · rename_i test
    obtain ⟨rfl, rfl⟩ := Prod.mk.inj (Except.ok.inj h)
    exact .inl ⟨test, rfl, rfl⟩
  · rename_i type test
    rw [answer_bind (steady_testFiles c _ _ _ _ _) fun _ => steady_pure _] at h
    obtain ⟨⟨found, judged⟩, hf, h⟩ := bind_eq_ok.mp h
    obtain ⟨rfl, rfl⟩ := Prod.mk.inj (Except.ok.inj h)
    exact .inr ⟨type, judged, test, hf, rfl⟩

/-! ## The primary descriptor and its imports -/

/-- The primary descriptor and the files that its imports lead to, one for each path that was asked for and is there.
Where the primary descriptor is not there, nothing is. -/
inductive Descriptors (c : Context) (repository reference : String) (l : Language) (path : String) :
    List SourceFile → Prop
  | absent (absent : c.world.remote.text repository reference path = .ok none) :
      Descriptors c repository reference l path []
  | present {text : String} {r : Resolution} (there : c.world.remote.text repository reference path = .ok (some text))
      (followed : Resolution.levels (l.importsFrom path) (c.world.remote.text repository reference) c.now
        c.options.maxImportDepth (Resolution.start path text) = .ok r)
      (found : (r.resolved.files.map fun f => f.2.absolutePath).Perm
        (r.seen.filter fun p => p ≠ path && isThere (c.world.remote.text repository reference) p)) :
      Descriptors c repository reference l path
        (.fetched c.now l.primaryType path path text :: r.resolved.files.map Prod.snd)

/-- The text of the primary descriptor is at its path, also where it is the manifest. -/
theorem answer_primaryText {path manifestText : String} {l : Language}
    (service : l = .service → c.world.remote.text repository reference path = .ok (some manifestText)) :
    (primaryText c repository reference path l manifestText).answer = c.world.remote.text repository reference path := by
  unfold primaryText
  split
  · rename_i hl
    exact (service hl).symm
  · exact answer_text c repository reference path

theorem descriptors_of_answer {path manifestText : String} {l : Language} {checks checks' : List Validation}
    {files : List SourceFile} (canonical : Path.normalize path = path)
    (service : l = .service → c.world.remote.text repository reference path = .ok (some manifestText))
    (h : (descriptorFiles c repository reference path l manifestText checks).answer = .ok (files, checks')) :
    Descriptors c repository reference l path files := by
  have primary := answer_primaryText service
  obtain ⟨absent, rfl, -⟩ | ⟨text, resolved, there, hr, rfl, -⟩ := descriptorFiles_cases h
  · exact .absent (primary ▸ absent)
  · obtain ⟨r, followed, hr⟩ := bind_eq_ok.mp hr
    obtain rfl := Except.ok.inj hr
    rw [canonical] at followed
    exact .present (primary ▸ there) followed (Resolution.sound_levels (Resolution.sound_start text) followed).paths

namespace Descriptors

variable {l : Language} {path : String} {files : List SourceFile}

theorem copies (h : Descriptors c repository reference l path files) :
    ∀ f ∈ files, f.IsCopy (c.world.remote.text repository reference) := by
  cases h with
  | absent => simp
  | @present text r there followed _ =>
    have sound := Resolution.sound_levels (Resolution.sound_start text) followed
    rw [List.forall_mem_cons]
    refine ⟨⟨text, rfl, there⟩, fun f hf => ?_⟩
    obtain ⟨g, hg, rfl⟩ := List.mem_map.mp hf
    exact sound.copies g hg

theorem types (h : Descriptors c repository reference l path files) :
    ∀ f ∈ files, f.type = l.primaryType ∨ f.type = l.secondaryType := by
  cases h with
  | absent => simp
  | @present text r _ followed _ =>
    have sound := Resolution.sound_levels (Resolution.sound_start text) followed
    rw [List.forall_mem_cons]
    refine ⟨.inl rfl, fun f hf => ?_⟩
    obtain ⟨g, hg, rfl⟩ := List.mem_map.mp hf
    obtain ⟨_, _, i, hi, type⟩ := sound.types g hg
    rw [type]
    exact Language.type_of_mem_importsFrom hi

/-- No two of these files are at one path. -/
theorem nodup_keys (h : Descriptors c repository reference l path files) : (files.map SourceFile.key).Nodup := by
  have paths : (files.map SourceFile.absolutePath).Nodup := by
    cases h with
    | absent => exact List.nodup_nil
    | @present text r _ followed found =>
      have sound := Resolution.sound_levels (Resolution.sound_start text) followed
      rw [List.map_cons, List.map_map, List.nodup_cons]
      refine ⟨fun primary => ?_, found.nodup_iff.mpr (sound.distinct.filter _)⟩
      have other := (List.mem_filter.mp (found.subset primary)).2
      simp [SourceFile.fetched] at other
  exact List.pairwise_map.mpr ((List.pairwise_map.mp paths).imp fun ne e => ne (congrArg FileKey.path e))

end Descriptors

/-- The manifest is a file of its own but for a service. -/
def manifestKeys (l : Language) : List FileKey := if l = .service then [] else [⟨.manifest, Manifest.path⟩]

/-- The test parameter files that are there, for languages that have such files. -/
def testKeys (fetch : String → Except SyncError (Option String)) (l : Language) (paths : List String) : List FileKey :=
  match l.testType? with
  | none => []
  | some type => (paths.filter (isThere fetch)).map (FileKey.mk type)

theorem keys_manifestFile (c : Context) (l : Language) (text : String) :
    (manifestFile c l text).map SourceFile.key = manifestKeys l := by
  unfold manifestFile manifestKeys
  split <;> rfl

theorem copies_manifestFile {fetch : String → Except SyncError (Option String)} {text : String}
    (h : fetch Manifest.path = .ok (some text)) (l : Language) : ∀ f ∈ manifestFile c l text, f.IsCopy fetch := by
  unfold manifestFile
  split
  · simp
  · rw [List.forall_mem_singleton]
    exact ⟨text, rfl, h⟩

theorem of_testFiles {type : FileType} {paths : List String} {checks checks' : List Validation}
    {files : List SourceFile} (h : (testFiles c repository reference type paths checks).answer = .ok (files, checks')) :
    files.map SourceFile.key =
        ((paths.map Path.normalize).filter (isThere (c.world.remote.text repository reference))).map (FileKey.mk type) ∧
      ∀ f ∈ files, f.IsCopy (c.world.remote.text repository reference) := by
  induction paths generalizing checks checks' files with
  | nil =>
    obtain ⟨rfl, -⟩ := Prod.mk.inj (Except.ok.inj h)
    simp
  | cons path paths ih =>
    obtain ⟨absent, h⟩ | ⟨text, rest, there, hr, rfl⟩ := testFiles_cons_cases h
    · rw [List.map_cons, List.filter_cons_of_neg (by simp [isThere, absent])]
      exact ih h
    · obtain ⟨keys, copies⟩ := ih hr
      rw [List.map_cons, List.map_cons, keys, List.filter_cons_of_pos (by simp [isThere, there])]
      exact ⟨rfl, List.forall_mem_cons.mpr ⟨⟨text, rfl, there⟩, copies⟩⟩

theorem of_parameterFiles {l : Language} {paths : List String} {checks checks' : List Validation}
    {files : List SourceFile} (canonical : ∀ path ∈ paths, Path.normalize path = path)
    (h : (parameterFiles c repository reference l paths checks).answer = .ok (files, checks')) :
    files.map SourceFile.key = testKeys (c.world.remote.text repository reference) l paths ∧
      ∀ f ∈ files, f.IsCopy (c.world.remote.text repository reference) := by
  unfold testKeys
  obtain ⟨none, rfl, -⟩ | ⟨type, judged, test, hf, -⟩ := parameterFiles_cases h
  · simp [none]
  · have same : paths.map Path.normalize = paths := (List.map_congr_left canonical).trans (List.map_id paths)
    simpa only [test, same] using of_testFiles hf

theorem nodup_testKeys {fetch : String → Except SyncError (Option String)} {l : Language} {paths : List String}
    (h : paths.Nodup) : (testKeys fetch l paths).Nodup := by
  unfold testKeys
  split
  · exact List.nodup_nil
  · exact List.pairwise_map.mpr ((h.filter _).imp fun ne e => ne (congrArg FileKey.path e))

theorem mem_testKeys_dedup {fetch : String → Except SyncError (Option String)} {l : Language} {paths : List String}
    {k : FileKey} : k ∈ testKeys fetch l paths.dedup ↔ k ∈ testKeys fetch l paths := by
  unfold testKeys
  split
  · rfl
  · simp only [List.mem_map, List.mem_filter, List.mem_dedup]

theorem type_of_mem_testKeys {fetch : String → Except SyncError (Option String)} {l : Language} {paths : List String}
    {k : FileKey} (h : k ∈ testKeys fetch l paths) : l.testType? = some k.type := by
  unfold testKeys at h
  split at h
  · exact absurd h List.not_mem_nil
  · rename_i type test
    obtain ⟨path, -, rfl⟩ := List.mem_map.mp h
    exact test

/-- The manifest, the descriptors and the test parameter files are of different kinds. -/
theorem nodup_keys {l : Language} {path : String} {descriptors : List SourceFile}
    (h : Descriptors c repository reference l path descriptors) (fetch : String → Except SyncError (Option String))
    {tests : List String} (ht : tests.Nodup) :
    (manifestKeys l ++ descriptors.map SourceFile.key ++ testKeys fetch l tests).Nodup := by
  have manifest : ∀ k ∈ manifestKeys l, k.type = .manifest := by
    unfold manifestKeys
    split <;> simp
  have descriptor : ∀ k ∈ descriptors.map SourceFile.key, k.type = l.primaryType ∨ k.type = l.secondaryType := by
    intro k hk
    obtain ⟨f, hf, rfl⟩ := List.mem_map.mp hk
    exact h.types f hf
  refine List.nodup_append.mpr ⟨List.nodup_append.mpr ⟨?_, h.nodup_keys, ?_⟩, nodup_testKeys ht, ?_⟩
  · unfold manifestKeys
    split <;> simp
  · rintro k hm _ hd rfl
    have type := manifest k hm
    have types := descriptor k hd
    rw [type] at types
    revert types
    cases l <;> decide
  · rintro k hk _ ht rfl
    have test := type_of_mem_testKeys ht
    have types : k.type = .manifest ∨ k.type = l.primaryType ∨ k.type = l.secondaryType :=
      (List.mem_append.mp hk).imp (manifest k) (descriptor k)
    revert test types
    generalize k.type = type
    cases l <;> cases type <;> decide

/-- What is collected is the manifest, the descriptors and the test parameter files, judged one after the other. -/
theorem parts_of_collect {e : Entry} {v : Version} {s : VersionSource} {files : List SourceFile}
    {checks : List Validation} (h : (collect c e v s).answer = .ok (files, checks)) :
    ∃ descriptors tests judged,
      (descriptorFiles c e.path.repositoryPath s.remote.name (Path.normalize (v.effectivePath e.defaultDescriptorPath))
        e.language s.manifestText (Validation.pass [] .manifest)).answer = .ok (descriptors, judged) ∧
      (parameterFiles c e.path.repositoryPath s.remote.name e.language v.testParameterPaths judged).answer =
        .ok (tests, checks) ∧
      files = manifestFile c e.language s.manifestText ++ descriptors ++ tests := by
  unfold collect at h
  split at h
  · unfold gather at h
    dsimp only at h
    rw [answer_bind (steady_descriptorFiles c _ _ _ _ _ _) fun _ =>
      steady_bind (steady_parameterFiles c _ _ _ _ _) fun _ => steady_pure _] at h
    obtain ⟨⟨descriptors, judged⟩, hd, h⟩ := bind_eq_ok.mp h
    dsimp only at h
    rw [answer_bind (steady_parameterFiles c _ _ _ _ _) fun _ => steady_pure _] at h
    obtain ⟨⟨tests, after⟩, ht, h⟩ := bind_eq_ok.mp h
    obtain ⟨rfl, rfl⟩ := Prod.mk.inj (Except.ok.inj h)
    exact ⟨descriptors, tests, judged, hd, ht, rfl⟩
  · simp at h

/-- All files that were collected: where they come from, and that they are copies. -/
theorem of_collect {e : Entry} {s : VersionSource} {files : List SourceFile} {checks : List Validation}
    (valid : s.declaration.WellFormed) (language : s.declaration.language = e.language)
    (text : c.world.remote.text e.path.repositoryPath s.remote.name Manifest.path = .ok (some s.manifestText))
    (h : (collect c e (outline e s) s).answer = .ok (files, checks)) :
    ∃ descriptors, Descriptors c e.path.repositoryPath s.remote.name s.declaration.language
        s.declaration.primaryDescriptorPath descriptors ∧
      files.map SourceFile.key = manifestKeys s.declaration.language ++ descriptors.map SourceFile.key ++
        testKeys (c.world.remote.text e.path.repositoryPath s.remote.name) s.declaration.language
          s.declaration.testParameterFiles ∧
      ∀ f ∈ files, f.IsCopy (c.world.remote.text e.path.repositoryPath s.remote.name) := by
  obtain ⟨descriptors, tests, _, hd, ht, rfl⟩ := parts_of_collect h
  rw [effectivePath_outline, valid.primary, ← language] at hd
  rw [← language] at ht
  have declared := descriptors_of_answer valid.primary (fun service => valid.service service ▸ text) hd
  obtain ⟨keys, copies⟩ := of_parameterFiles valid.tests ht
  refine ⟨descriptors, declared, ?_, fun f hf => ?_⟩
  · rw [List.map_append, List.map_append, keys_manifestFile, keys, language]
  · rcases List.mem_append.mp hf with hf | hf
    · rcases List.mem_append.mp hf with hf | hf
      · exact copies_manifestFile text _ f hf
      · exact declared.copies f hf
    · exact copies f hf

/-- The manifest is among the files, for a service as the primary descriptor. -/
theorem manifest_mem_keys {s : VersionSource} {descriptors : List SourceFile} (valid : s.declaration.WellFormed)
    (text : c.world.remote.text repository reference Manifest.path = .ok (some s.manifestText))
    (h : Descriptors c repository reference s.declaration.language s.declaration.primaryDescriptorPath descriptors) :
    ⟨if s.declaration.language = .service then .serviceManifest else .manifest, Manifest.path⟩ ∈
      manifestKeys s.declaration.language ++ descriptors.map SourceFile.key := by
  by_cases service : s.declaration.language = .service
  · rw [if_pos service]
    refine List.mem_append_right _ ?_
    cases h with
    | absent absent =>
      rw [valid.service service, text] at absent
      exact nomatch absent
    | present _ _ _ =>
      rw [List.map_cons, service, valid.service service]
      exact List.mem_cons_self
  · rw [if_neg service]
    exact List.mem_append_left _ (by simp [manifestKeys, service])

namespace IsBuilt

variable {e : Entry} {s : VersionSource} {v : Version} {files : List SourceFile} {checks : List Validation}
  (h : IsBuilt c e s v files checks)
include h

theorem sourceFiles : v.sourceFiles = (merge (outline e s).sourceFiles files c.options.algorithm).files := by
  rw [h.eq]

/-- The version has the files that were collected, each once. -/
theorem keys_perm {keys : List FileKey} (distinct : keys.Nodup) (same : ∀ k, k ∈ keys ↔ k ∈ files.map SourceFile.key) :
    (v.sourceFiles.map SourceFile.key).Perm keys := by
  rw [h.sourceFiles, List.perm_ext_iff_of_nodup (Merge.isAscending_files _ _ _).nodup_keys distinct]
  intro k
  rw [same, Merge.mem_keys_files]

theorem copies {fetch : String → Except SyncError (Option String)} (copies : ∀ f ∈ files, f.IsCopy fetch) :
    ∀ f ∈ v.sourceFiles, f.IsCopy fetch := by
  intro f hf
  rw [h.sourceFiles] at hf
  obtain ⟨g, hg, rfl⟩ := Merge.mem_files hf
  obtain ⟨member, -⟩ := Merge.find?_eq_some hg
  obtain ⟨text, content, there⟩ := copies g member
  refine ⟨text, (Merge.content_joined _ _ _).trans content, ?_⟩
  rwa [show (Merge.joined _ _ g).absolutePath = g.absolutePath from congrArg FileKey.path (Merge.key_joined _ _ g)]

/-- A file that was on record keeps its identity. -/
theorem identity {w : Version} (found : e.version? s.remote.name = some w)
    (ascending : Ascending.IsAscending SourceFile.key w.sourceFiles) {f g : SourceFile} (hf : f ∈ v.sourceFiles)
    (hg : g ∈ w.sourceFiles) (same : g.key = f.key) : f.id = g.id ∧ f.createdAt = g.createdAt := by
  rw [h.sourceFiles] at hf
  obtain ⟨fetched, -, rfl⟩ := Merge.mem_files hf
  refine Merge.identity_joined ?_
  rw [Merge.key_joined] at same
  have onRecord : (outline e s).sourceFiles = w.sourceFiles := by simp only [outline, found, Option.getD_some]
  rw [Merge.find?, onRecord, Ascending.lastOf_eq_self ascending, Keyed.find?_eq_some_iff ascending.nodup_keys]
  exact ⟨hg, same⟩

end IsBuilt

end Build

open Build

/-- A version is a copy of what the repository has at its reference: it has the commit, and one file for each that is
declared and there, with its text. Files that were on record keep their identity. -/
structure Version.Mirrors (c : Context) (repository : String) (s : VersionSource) (old : Option Version) (v : Version) :
    Prop where
  name : v.name = s.remote.name
  commit : v.commitId = some s.remote.commitId
  files : ∃ descriptors, Descriptors c repository s.remote.name s.declaration.language
      s.declaration.primaryDescriptorPath descriptors ∧
    (v.sourceFiles.map SourceFile.key).Perm (manifestKeys s.declaration.language ++ descriptors.map SourceFile.key ++
      testKeys (c.world.remote.text repository s.remote.name) s.declaration.language
        s.declaration.testParameterFiles.dedup)
  manifest : ⟨if s.declaration.language = .service then .serviceManifest else .manifest, Manifest.path⟩ ∈
    v.sourceFiles.map SourceFile.key
  contents : ∀ f ∈ v.sourceFiles, f.IsCopy (c.world.remote.text repository s.remote.name)
  identity : ∀ w, old = some w → ∀ f ∈ v.sourceFiles, ∀ g ∈ w.sourceFiles, g.key = f.key →
    f.id = g.id ∧ f.createdAt = g.createdAt

theorem Version.mirrors_of_isBuilt {c : Context} {e : Entry} {s : VersionSource} {v : Version} {files : List SourceFile}
    {checks : List Validation} (built : IsBuilt c e s v files checks) (valid : s.declaration.WellFormed)
    (text : c.world.remote.text e.path.repositoryPath s.remote.name Manifest.path = .ok (some s.manifestText))
    (ascending : ∀ w, e.version? s.remote.name = some w → Ascending.IsAscending SourceFile.key w.sourceFiles) :
    v.Mirrors c e.path.repositoryPath s (e.version? s.remote.name) := by
  obtain ⟨descriptors, declared, keys, copies⟩ := of_collect valid built.language text built.collected
  have stored := built.keys_perm (nodup_keys declared (c.world.remote.text e.path.repositoryPath s.remote.name)
    (List.nodup_dedup s.declaration.testParameterFiles)) fun k => by
      rw [keys, List.mem_append, List.mem_append (t := testKeys _ _ _), mem_testKeys_dedup]
  refine ⟨?_, ?_, ⟨descriptors, declared, stored⟩, ?_, built.copies copies, fun w found f hf g hg => ?_⟩
  · rw [built.eq]
    exact name_outline e s
  · rw [built.eq]
    rfl
  · exact stored.mem_iff.mpr (List.mem_append_left _ (manifest_mem_keys valid text declared))
  · exact built.identity found (ascending w found) hf hg

end WorkflowCatalog
