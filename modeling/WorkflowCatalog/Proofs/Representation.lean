import WorkflowCatalog.Proofs.Catalog
import WorkflowCatalog.Proofs.Clock
import WorkflowCatalog.Proofs.Files

/-!
# How a catalog is represented

Entries are looked up by address and saved by identifier, versions are replaced by name, and files are merged by key.
All of that is sound since accounts, entries and versions have different names, files stand at normal paths that give
them their identifiers, and files and judgments are kept in order. Every operation on a catalog keeps this up.
-/
namespace WorkflowCatalog

open Fetch

/-- A file is known by where it stands: its path is normal, and its identifier is that of its key. -/
structure SourceFile.IsCanonical (f : SourceFile) : Prop where
  path : Path.normalize f.absolutePath = f.absolutePath
  id : f.id = f.key.fileId

theorem SourceFile.IsCanonical.fetched {path : String} (normal : Path.normalize path = path) (now : Timestamp)
    (type : FileType) (written content : String) : (SourceFile.fetched now type written path content).IsCanonical :=
  ⟨normal, rfl⟩

/-! ## Files that are collected -/

section Imports

variable {extract : String → String → List ImportRef} {fetch : String → Except SyncError (Option String)}
  {now : Timestamp}

theorem Resolution.canonical_levels {depth : Nat} {r r' : Resolution}
    (hr : ∀ f ∈ r.resolved.files, f.2.IsCanonical) (h : levels extract fetch now depth r = .ok r') :
    ∀ f ∈ r'.resolved.files, f.2.IsCanonical := by
  refine levels_induction (P := fun r => ∀ f ∈ r.resolved.files, f.2.IsCanonical) (fun r hr => hr) ?_ hr h
  intro r importer i r' _ step hr
  cases step with
  | url => exact hr
  | known => exact hr
  | missing => exact hr
  | @found written path text leads _ _ =>
    obtain ⟨key, -, added⟩ := addFile_eq r.resolved written (.fetched now i.type written path text)
    intro f hf
    rw [added] at hf
    obtain rfl | hf := Ascending.mem_of_mem_put hf
    · exact .fetched (leads ▸ Path.normalize_resolve _ _) _ _ _ _
    · exact hr f hf

theorem canonical_resolveImports {depth : Nat} {path content : String} {resolved : ResolvedImports}
    (h : resolveImports extract fetch now depth path content = .ok resolved) :
    ∀ f ∈ resolved.files, f.2.IsCanonical := by
  obtain ⟨r, walked, h⟩ := bind_eq_ok.mp h
  obtain rfl := Except.ok.inj h
  exact Resolution.canonical_levels (fun f hf => absurd hf List.not_mem_nil) walked

end Imports

namespace Build

variable {c : Context} {repository reference : String} {checks checks' : List Validation} {files : List SourceFile}

theorem canonical_manifestFile (c : Context) (l : Language) (text : String) :
    ∀ f ∈ manifestFile c l text, f.IsCanonical := by
  unfold manifestFile
  split
  · exact fun f hf => absurd hf List.not_mem_nil
  · exact List.forall_mem_singleton.mpr (.fetched (by decide +kernel) _ _ _ _)

theorem canonical_descriptorFiles {path manifestText : String} {l : Language} (normal : Path.normalize path = path)
    (h : (descriptorFiles c repository reference path l manifestText checks).answer = .ok (files, checks')) :
    ∀ f ∈ files, f.IsCanonical := by
  obtain ⟨-, rfl, -⟩ | ⟨text, resolved, -, imports, rfl, -⟩ := descriptorFiles_cases h
  · exact fun f hf => absurd hf List.not_mem_nil
  · rw [List.forall_mem_cons, List.forall_mem_map]
    exact ⟨.fetched normal _ _ _ _, canonical_resolveImports imports⟩

theorem canonical_testFiles {type : FileType} {paths : List String}
    (h : (testFiles c repository reference type paths checks).answer = .ok (files, checks')) :
    ∀ f ∈ files, f.IsCanonical := by
  induction paths generalizing checks checks' files with
  | nil =>
    obtain ⟨rfl, -⟩ := Prod.mk.inj (Except.ok.inj h)
    exact fun f hf => absurd hf List.not_mem_nil
  | cons path paths ih =>
    obtain ⟨-, h⟩ | ⟨text, rest, -, hr, rfl⟩ := testFiles_cons_cases h
    · exact ih h
    · exact List.forall_mem_cons.mpr ⟨.fetched (Path.normalize_normalize path) _ _ _ _, ih hr⟩

theorem canonical_parameterFiles {l : Language} {paths : List String}
    (h : (parameterFiles c repository reference l paths checks).answer = .ok (files, checks')) :
    ∀ f ∈ files, f.IsCanonical := by
  obtain ⟨-, rfl, -⟩ | ⟨type, judged, -, hf, -⟩ := parameterFiles_cases h
  · exact fun f hf => absurd hf List.not_mem_nil
  · exact canonical_testFiles hf

theorem canonical_collect {e : Entry} {v : Version} {s : VersionSource}
    (h : (collect c e v s).answer = .ok (files, checks)) : ∀ f ∈ files, f.IsCanonical := by
  obtain ⟨descriptors, tests, _, hd, ht, rfl⟩ := parts_of_collect h
  rw [List.forall_mem_append, List.forall_mem_append]
  exact ⟨⟨canonical_manifestFile c _ _, canonical_descriptorFiles (Path.normalize_normalize _) hd⟩,
    canonical_parameterFiles ht⟩

end Build

/-! ## Files that are merged -/

/-- A file stands where the one that was fetched does, and keeps the identifier that goes with it. -/
theorem Merge.canonical_files {existing fetched : List SourceFile} {a : DigestAlgorithm}
    (known : ∀ f ∈ existing, f.IsCanonical) (new : ∀ f ∈ fetched, f.IsCanonical) :
    ∀ f ∈ (merge existing fetched a).files, f.IsCanonical := by
  intro f hf
  obtain ⟨g, found, rfl⟩ := mem_files hf
  obtain ⟨hg, key⟩ := find?_eq_some found
  refine ⟨?_, ?_⟩
  · have path := congrArg FileKey.path (key_joined a (Ascending.lastOf SourceFile.key existing) g)
    change (joined a _ g).absolutePath = g.absolutePath at path
    rw [path]
    exact (new g hg).path
  · -- The identifier is that of the file that was known there, if there was one.
    rw [key_joined]
    cases before : find? g.key (Ascending.lastOf SourceFile.key existing) with
    | some old =>
      obtain ⟨ho, key'⟩ := find?_eq_some before
      rw [(identity_joined before).1, (known old (Ascending.mem_of_mem_lastOf ho)).id, key']
    | none => exact id_joined before

/-! ## Entries -/

/-- What is the same for the versions of all entries of a language. -/
structure Version.IsRegular (l : Language) (v : Version) : Prop where
  language : v.language = l
  files : ∀ f ∈ v.sourceFiles, f.IsCanonical
  validations : Ascending.IsAscending Validation.rank v.validations

/-- All versions of the entry are as they should be for its language. -/
def Entry.IsRegular (e : Entry) : Prop := ∀ v ∈ e.versions, v.IsRegular e.language

theorem Entry.IsRegular.outline {e : Entry} (h : e.IsRegular) (s : VersionSource) :
    (Build.outline e s).IsRegular e.language := by
  have before : ((e.version? s.remote.name).getD (.ofRemote s.remote e.language)).IsRegular e.language := by
    cases found : e.version? s.remote.name with
    | some v => exact h v (List.mem_of_find?_eq_some found)
    | none => exact ⟨rfl, fun f hf => absurd hf List.not_mem_nil, List.Pairwise.nil⟩
  exact ⟨before.language, before.files, before.validations⟩

theorem Entry.IsRegular.upsert {e : Entry} (h : e.IsRegular) {v : Version} (hv : v.IsRegular e.language) :
    (e.upsert v).IsRegular := by
  intro w hw
  obtain rfl | hw := Keyed.mem_of_mem_upsert hw
  · exact hv
  · exact h w hw

/-- The versions of an entry are regular, whatever was done to it. -/
theorem Entry.invariant_isRegular : Invariant Entry.IsRegular where
  new _ _ := fun _ hv => absurd hv List.not_mem_nil
  settings _ h := h
  built {c e s v} h answer := by
    obtain ⟨files, checks, hb⟩ := Build.isBuilt_of_answer answer
    have outline := h.outline s
    refine h.upsert ?_
    rw [hb.eq]
    exact ⟨outline.language, Merge.canonical_files outline.files (Build.canonical_collect hb.collected),
      Ascending.isAscending_lastOf Validation.rank _⟩
  removed _ h := fun v hv => h v (List.mem_of_mem_eraseP hv)
  frozen {e name v} h found := by
    have before := h v (List.mem_of_find?_eq_some found)
    exact h.upsert ⟨before.language, before.files, before.validations⟩

/-! ## Accounts -/

namespace Store

variable {s s' : Store}

theorem nodup_addUser (h : (s.users.map User.username).Nodup) (now : Timestamp) (username : String) :
    ((s.addUser now username).users.map User.username).Nodup := by
  unfold addUser
  split
  · exact h
  · rename_i unknown
    rw [hasUser, List.any_eq_true, not_exists] at unknown
    rw [List.map_append, List.nodup_append]
    refine ⟨h, List.pairwise_singleton _ _, fun a ha b hb same => ?_⟩
    obtain ⟨u, hu, rfl⟩ := List.mem_map.mp ha
    exact unknown u ⟨hu, by rw [same, List.mem_singleton.mp hb]; exact beq_self_eq_true _⟩

theorem Reachable.nodup_users (h : s.Reachable) : (s.users.map User.username).Nodup := by
  induction h with
  | refl => exact List.nodup_nil
  | @tail s t before step ih =>
    cases step with
    | register now username => exact nodup_addUser ih now username
    | freeze => exact ih
    | call c call =>
      have entries : s.All Entry.WellFormed := (show s.Reachable from before).wellFormed.entries
      rw [(Entry.invariant_wellFormed.run entries call).users]
      exact ih

/-! ## The catalog -/

/-- How accounts, entries, versions, files and judgments are kept. -/
structure IsRepresented (s : Store) : Prop where
  users : (s.users.map User.username).Nodup
  ids : (s.entries.map Entry.id).Nodup
  paths : (s.entries.map Entry.path).Nodup
  id : ∀ e ∈ s.entries, e.id = e.path.entryId
  names : ∀ e ∈ s.entries, (e.versions.map Version.name).Nodup
  languages : ∀ e ∈ s.entries, ∀ v ∈ e.versions, v.language = e.language
  ordered : ∀ e ∈ s.entries, ∀ v ∈ e.versions, Ascending.IsAscending SourceFile.key v.sourceFiles
  files : ∀ e ∈ s.entries, ∀ v ∈ e.versions, ∀ f ∈ v.sourceFiles,
    Path.normalize f.absolutePath = f.absolutePath ∧ f.id = FileKey.fileId ⟨f.type, f.absolutePath⟩
  validations : ∀ e ∈ s.entries, ∀ v ∈ e.versions, Ascending.IsAscending Validation.rank v.validations

/-- Every catalog that can come about is represented like this. -/
theorem isRepresented_of_reachable (h : s.Reachable) : s.IsRepresented := by
  have formed := h.wellFormed
  have regular := Entry.invariant_isRegular.reachable h
  exact {
    users := h.nodup_users
    ids := formed.ids
    paths := formed.paths
    id := fun e he => (formed.entries e he).id
    names := fun e he => (formed.entries e he).distinct
    languages := fun e he v hv => (regular e he v hv).language
    ordered := fun e he v hv => (formed.entries e he).ascending v hv
    files := fun e he v hv f hf => ⟨((regular e he v hv).files f hf).path, ((regular e he v hv).files f hf).id⟩
    validations := fun e he v hv => (regular e he v hv).validations }

/-- The small catalog has a frozen version with its files, and is represented like this. -/
theorem sample_isRepresented : Sample.frozen.1.IsRepresented ∧
    ∃ e, Sample.frozen.val.entry? Sample.path = some e ∧ ∃ v, e.version? "main" = some v ∧ v.frozen = true ∧
      v.sourceFiles.length = 3 ∧ v.validations.length = 4 :=
  ⟨isRepresented_of_reachable Sample.frozen.2, by decide +kernel⟩

end Store

end WorkflowCatalog
