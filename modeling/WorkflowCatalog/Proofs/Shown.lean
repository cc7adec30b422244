import WorkflowCatalog.Proofs.Frozen
import WorkflowCatalog.Proofs.Primaries
import WorkflowCatalog.Proofs.Verdicts

/-!
# The primary descriptor that is shown

The primary descriptor of a version is looked for among its files whenever the version is shown, which may be long after
the version was built and judged. What is found is the file that was judged, whatever other files the path could mean:
it is at the path exactly, and both the path and the files stay with the record of the version.
-/
namespace WorkflowCatalog

open Sync Validation

/-- The judgment on the text of a primary descriptor. -/
def Language.judgment (l : Language) (path text : String) : Validation :=
  match l.check text with
  | .ok () => .valid (.descriptor l)
  | .error e => .invalid (.descriptor l) (SyncError.descriptorSyntax path e.message).message

namespace Validation

/-- The judgment in a category, if there is one. -/
def judgment? (vs : List Validation) (k : Category) : Option Validation := vs.find? fun v => v.rank == k.rank

/-- The judgments are in order, and this is the one in its category. -/
structure Holds (vs : List Validation) (k : Category) (j : Validation) : Prop where
  ascending : Ascending.IsAscending rank vs
  found : judgment? vs k = some j

namespace Holds

variable {vs : List Validation} {k c : Category} {j : Validation}

/-- A pass leaves it alone, and so does a failure in another category. -/
theorem pass (h : Holds vs k j) (c : Category) : Holds (Validation.pass vs c) k j := by
  refine ⟨isAscending_pass h.ascending c, ?_⟩
  have found := h.found
  unfold judgment? Validation.pass at *
  rw [Ascending.find?_offer h.ascending, found, Option.some_or]

theorem fail (h : Holds vs k j) (other : c ≠ k) (message : String) : Holds (Validation.fail vs c message) k j := by
  refine ⟨isAscending_fail h.ascending c message, ?_⟩
  have put (m : String) : judgment? (Ascending.put rank (invalid c m) vs) k = some j := by
    have found := h.found
    unfold judgment? at *
    rw [Ascending.find?_put, if_neg (mt rank_eq_iff.mp other), found]
  unfold Validation.fail
  split <;> exact put _

/-- New judgments replace old ones. -/
theorem aggregate (h : Holds vs k j) (existing : List Validation) : Holds (Validation.aggregate existing vs) k j := by
  refine ⟨Ascending.isAscending_lastOf rank _, ?_⟩
  have found := h.found
  unfold judgment? Validation.aggregate at *
  rw [Ascending.find?_lastOf, List.reverse_append, List.find?_append, h.ascending.find?_reverse, found, Option.some_or]

theorem iff (h : Holds vs k j) (i : Validation) : i ∈ vs ∧ i.category = k ↔ i = j := by
  have found := Keyed.find?_eq_some_iff (k := k.rank) h.ascending.nodup_keys (a := i)
  rw [rank_eq_iff] at found
  rw [← found]
  change judgment? vs k = some i ↔ i = j
  rw [h.found, Option.some.injEq, eq_comm]

end Holds

end Validation

namespace Build

variable {c : Context} {repository reference : String} {l : Language} {path : String} {vs vs' : List Validation}
  {j : Validation} {files : List SourceFile}

/-! ## The judgment on the descriptor is kept -/

theorem holds_judge (ascending : Ascending.IsAscending Validation.rank vs)
    (new : judgment? vs (.descriptor l) = none) (text : String) :
    Holds (judge l path text vs) (.descriptor l) (l.judgment path text) := by
  unfold judgment? at new
  unfold judge Language.judgment
  cases l.check text with
  | ok =>
    refine ⟨isAscending_pass ascending _, ?_⟩
    unfold judgment? Validation.pass
    rw [Ascending.find?_offer ascending, new, Option.none_or]
    exact if_pos rfl
  | error e =>
    refine ⟨isAscending_fail ascending _ _, ?_⟩
    have unjudged : vs.find? (fun v => v.category == .descriptor l && !v.isValid) = none := by
      rw [List.find?_eq_none] at new ⊢
      intro v hv judged
      rw [Bool.and_eq_true, beq_iff_eq] at judged
      exact new v hv (beq_iff_eq.mpr (rank_eq_iff.mpr judged.1))
    unfold judgment? Validation.fail
    rw [unjudged, Ascending.find?_put]
    exact if_pos rfl

theorem holds_judgeImports (h : Holds vs (.descriptor l) j) (missing : List String) :
    Holds (judgeImports missing vs) (.descriptor l) j := by
  unfold judgeImports
  split
  · exact h.pass _
  · exact h.fail (c := .imports) nofun _

theorem holds_testFiles {type : FileType} {paths : List String} (h : Holds vs (.descriptor l) j)
    (answer : (testFiles c repository reference type paths vs).answer = .ok (files, vs')) :
    Holds vs' (.descriptor l) j := by
  induction paths generalizing vs files with
  | nil =>
    obtain ⟨-, rfl⟩ := Prod.mk.inj (Except.ok.inj answer)
    exact h
  | cons path paths ih =>
    obtain ⟨-, answer⟩ | ⟨_, _, -, answer, -⟩ := testFiles_cons_cases answer
    · exact ih (h.fail (c := .testParameters) nofun _) answer
    · exact ih h answer

theorem holds_parameterFiles {m : Language} {paths : List String} (h : Holds vs (.descriptor l) j)
    (answer : (parameterFiles c repository reference m paths vs).answer = .ok (files, vs')) :
    Holds vs' (.descriptor l) j := by
  obtain ⟨-, -, rfl⟩ | ⟨type, judged, -, tested, rfl⟩ := parameterFiles_cases answer
  · exact h
  · exact (holds_testFiles h tested).pass _

/-- The judgment on a descriptor that was fetched is there when all files are. -/
theorem holds_aggregate {text : String} {missing paths : List String}
    (answer : (parameterFiles c repository reference l paths
      (judgeImports missing (judge l path text (Validation.pass [] .manifest)))).answer = .ok (files, vs'))
    (existing : List Validation) :
    Holds (Validation.aggregate existing vs') (.descriptor l) (l.judgment path text) := by
  have unjudged : judgment? (Validation.pass [] .manifest) (.descriptor l) = none := by cases l <;> rfl
  have judged : Holds (judge l path text _) (.descriptor l) (l.judgment path text) :=
    holds_judge (isAscending_pass List.Pairwise.nil .manifest) unjudged text
  exact (holds_parameterFiles (holds_judgeImports judged missing) answer).aggregate existing

/-! ## The descriptor among the files -/

theorem ne_primaryType_of_manifestFile {text : String} {f : SourceFile} (h : f ∈ manifestFile c l text) :
    f.type ≠ l.primaryType := by
  unfold manifestFile at h
  split at h
  · exact absurd h List.not_mem_nil
  · obtain rfl := List.mem_singleton.mp h
    cases l <;> exact nofun

theorem ne_primaryType_of_parameterFiles {paths : List String} (canonical : ∀ path ∈ paths, Path.normalize path = path)
    (answer : (parameterFiles c repository reference l paths vs).answer = .ok (files, vs')) {f : SourceFile}
    (h : f ∈ files) : f.type ≠ l.primaryType := by
  have member := List.mem_map_of_mem (f := SourceFile.key) h
  rw [(of_parameterFiles canonical answer).1] at member
  have test : l.testType? = some f.type := type_of_mem_testKeys member
  intro primary
  rw [primary] at test
  revert test
  cases l <;> exact nofun

/-- A descriptor that was fetched is the first of the files that has its key. -/
theorem find?_descriptor (manifestText text : String) (imported tests : List SourceFile) :
    Merge.find? ⟨l.primaryType, path⟩ (manifestFile c l manifestText ++
        .fetched c.now l.primaryType path path text :: imported ++ tests) =
      some (.fetched c.now l.primaryType path path text) := by
  have before : ∀ f ∈ manifestFile c l manifestText, ¬ (f.key == ⟨l.primaryType, path⟩) = true := fun f hf same =>
    ne_primaryType_of_manifestFile hf (congrArg FileKey.type (beq_iff_eq.mp same))
  rw [Merge.find?, List.append_assoc, List.find?_append, List.find?_eq_none.mpr before, Option.none_or]
  exact List.find?_cons_of_pos (beq_self_eq_true _)

end Build

/-! ## What is shown -/

namespace Entry

/-- Where the primary descriptor of a version is to be found. -/
def primaryPath (e : Entry) (v : Version) : String := Path.normalize (v.effectivePath e.defaultDescriptorPath)

/-- The primary descriptor of a version as it is shown. -/
def primary? (e : Entry) (v : Version) : Option SourceFile :=
  SourceFile.primary? e.language.primaryType (v.effectivePath e.defaultDescriptorPath) v.sourceFiles

/-- The primary descriptor of a version is shown if it was there to be fetched. It is the file at its very path, with
the text that was there, and the judgment on descriptors is the one on that text. -/
structure ShowsJudged (e : Entry) (v : Version) (fetch : String → Except SyncError (Option String)) : Prop where
  shown : (e.primary? v).isSome = true ↔ ∃ text, fetch (e.primaryPath v) = .ok (some text)
  judged : ∀ f, e.primary? v = some f → f.absolutePath = e.primaryPath v ∧ ∃ text, f.content = some text ∧
    fetch (e.primaryPath v) = .ok (some text) ∧
    ∀ j, j ∈ v.validations ∧ j.category = .descriptor e.language ↔ j = e.language.judgment (e.primaryPath v) text

section SameRecord

variable {e f : Entry} {v w : Version} (core : f.SameCore e) (record : { w with frozen := v.frozen } = v)
include core record

theorem effectivePath_congr : w.effectivePath f.defaultDescriptorPath = v.effectivePath e.defaultDescriptorPath := by
  rw [core.defaultDescriptorPath, ← record]
  rfl

theorem primaryPath_congr : f.primaryPath w = e.primaryPath v := congrArg Path.normalize (effectivePath_congr core record)

/-- What is shown depends on the record of the version, whether it is locked or not, and on the core of its entry. -/
theorem ShowsJudged.congr {fetch : String → Except SyncError (Option String)} (h : e.ShowsJudged v fetch) :
    f.ShowsJudged w fetch := by
  have path := primaryPath_congr core record
  have validations : w.validations = v.validations := by rw [← record]
  have files : w.sourceFiles = v.sourceFiles := by rw [← record]
  have primary : f.primary? w = e.primary? v := by
    rw [primary?, effectivePath_congr core record, core.language, files]
    rfl
  refine ⟨?_, fun file => ?_⟩
  · rw [primary, path]
    exact h.shown
  · rw [primary, path, validations, core.language]
    exact h.judged file

end SameRecord

end Entry

namespace Build.IsBuilt

variable {c : Context} {e : Entry} {s : VersionSource} {v : Version} {files : List SourceFile}
  {checks : List Validation}

theorem effectivePath (h : IsBuilt c e s v files checks) :
    v.effectivePath e.defaultDescriptorPath = s.declaration.primaryDescriptorPath := by
  rw [← effectivePath_outline e s, h.eq]
  rfl

theorem primaryPath (h : IsBuilt c e s v files checks) (valid : s.declaration.WellFormed) :
    e.primaryPath v = s.declaration.primaryDescriptorPath := by
  rw [Entry.primaryPath, h.effectivePath, valid.primary]

/-- Nothing is shown if no file of its kind was collected. -/
theorem primary?_eq_none (h : IsBuilt c e s v files checks) (other : ∀ f ∈ files, f.type ≠ e.language.primaryType) :
    e.primary? v = none := by
  refine SourceFile.primary?_eq_none_iff.mpr fun f hf candidate => ?_
  rw [h.sourceFiles] at hf
  obtain ⟨g, hg, -⟩ := Merge.mem_files hf
  obtain ⟨member, key⟩ := Merge.find?_eq_some hg
  exact other g member ((congrArg FileKey.type key).trans candidate.1)

/-- The file that was collected at the declared path is the one that is shown. -/
theorem exists_primary? (h : IsBuilt c e s v files checks) (valid : s.declaration.WellFormed) {g : SourceFile}
    (collected : Merge.find? ⟨e.language.primaryType, s.declaration.primaryDescriptorPath⟩ files = some g) :
    ∃ f, e.primary? v = some f ∧ f.absolutePath = s.declaration.primaryDescriptorPath ∧ f.content = g.content := by
  have keys : (v.sourceFiles.map SourceFile.key).Nodup := by
    rw [h.sourceFiles]
    exact (Merge.isAscending_files _ _ _).nodup_keys
  have stored := Merge.find?_files (outline e s).sourceFiles files c.options.algorithm
    ⟨e.language.primaryType, s.declaration.primaryDescriptorPath⟩
  rw [collected, ← h.sourceFiles] at stored
  obtain ⟨member, key⟩ := Merge.find?_eq_some stored
  have place := congrArg FileKey.path key
  have found : e.primary? v = some _ := SourceFile.primary?_of_absolutePath_eq keys member
    (congrArg FileKey.type key) (place.trans (h.primaryPath valid).symm)
  exact ⟨_, found, place, Merge.content_joined _ _ _⟩

/-- A version that is built shows the descriptor that was judged when it was built. -/
theorem showsJudged (h : IsBuilt c e s v files checks) (valid : s.declaration.WellFormed)
    (manifest : c.world.remote.text e.path.repositoryPath s.remote.name Manifest.path = .ok (some s.manifestText)) :
    e.ShowsJudged v (c.world.remote.text e.path.repositoryPath s.remote.name) := by
  obtain ⟨descriptors, tests, judged, hd, ht, parts⟩ := parts_of_collect h.collected
  rw [effectivePath_outline, valid.primary] at hd
  have path := h.primaryPath valid
  have primary := answer_primaryText fun service => valid.service (h.language.trans service) ▸ manifest
  obtain ⟨absent, rfl, -⟩ | ⟨text, resolved, there, -, rfl, rfl⟩ := descriptorFiles_cases hd
  · -- Without a descriptor nothing of its kind is collected.
    rw [primary] at absent
    have hidden : e.primary? v = none := h.primary?_eq_none fun f member => by
      rw [parts, List.append_nil] at member
      rcases List.mem_append.mp member with ofManifest | ofTests
      · exact ne_primaryType_of_manifestFile ofManifest
      · exact ne_primaryType_of_parameterFiles valid.tests ht ofTests
    refine ⟨?_, fun f found => nomatch hidden.symm.trans found⟩
    rw [hidden, path, absent]
    exact iff_of_false nofun nofun
  · rw [primary] at there
    obtain ⟨g, found, place, content⟩ := h.exists_primary? valid (parts ▸ find?_descriptor ..)
    refine ⟨?_, fun f hf => ?_⟩
    · rw [found, path, there]
      exact iff_of_true rfl ⟨text, rfl⟩
    · obtain rfl := Option.some.inj (found.symm.trans hf)
      have holds := holds_aggregate ht (outline e s).validations
      rw [path]
      exact ⟨place, text, content, there, h.eq ▸ holds.iff⟩

end Build.IsBuilt

namespace Reconcile

/-- For each version that a call tells of as added or updated, in a catalog that can come about, and in all later catalogs
as long as its record stays, locked or not, the primary descriptor is looked for at the path that was declared when the
version was built. It is shown if the repository had a file there, and then it is that file, at that path exactly, with
the text that the judgment on descriptors is about. -/
theorem shown_primary_judged {s : Store} (h : s.Reachable) (c : Context) (call : Call) {x : SyncResult}
    (hx : x ∈ (run c s call).results) {n : String} (hn : n ∈ x.added ∨ n ∈ x.updated) :
    ∃ (p q : EntryPath) (source : VersionSource) (e : Entry) (v : Version),
      repositoryPath call.repository = .ok p ∧ q.sameRepository p = true ∧ x.entry = some q.toText ∧
        call.Finds c q.name n source ∧ (run c s call).store.entry? q = some e ∧ e.version? n = some v ∧
        ∀ later, (run c s call).store.Steps later → ∃ f, later.entry? q = some f ∧
          ∀ w, f.version? n = some w → { w with frozen := v.frozen } = v →
            f.primaryPath w = source.declaration.primaryDescriptorPath ∧
              f.ShowsJudged w (c.world.remote.text call.repository n) := by
  have hs := h.wellFormed
  obtain ⟨isNew, hn⟩ : ∃ isNew, n ∈ told isNew x := hn.elim (fun h => ⟨true, h⟩) fun h => ⟨false, h⟩
  obtain ⟨js, planned, j, hj, _, _, _, part, hx⟩ := part_of_told hs hx hn
  obtain ⟨entry, e, g, v, source, files, checks, saved, version, hsource, built, path, -, core, -⟩ :=
    part.effect.built (fun e found => (hs.entry?_eq_some_iff.mp found).2)
      (fun e found => (hs.entries.entry? found).distinct) hx hn
  obtain ⟨p, repository, paths⟩ := planned.path_of_jobs
  have finds := planned.finds hj hsource
  have stored : (run c s call).store.entry? j.path = some e := by
    rw [part.entry?, saved]
    rfl
  have address : g.path.repositoryPath = call.repository := by
    rw [path]
    exact planned.address_jobs j hj
  have valid : source.declaration.WellFormed := by
    obtain ⟨m, parsed, declared⟩ := finds.declared
    exact (Manifest.wellFormed_of_parse parsed).entries _ ((Manifest.entry?_eq_some_iff parsed).mp declared).1
  have manifest : c.world.remote.text g.path.repositoryPath source.remote.name Manifest.path =
      .ok (some source.manifestText) := by
    rw [address, finds.name]
    exact finds.text
  have shown := built.showsJudged valid manifest
  rw [address, finds.name] at shown
  refine ⟨p, j.path, source, e, v, repository, EntryPath.sameRepository_iff.mpr (paths j hj), entry, finds, stored,
    version, fun later steps => ?_⟩
  obtain ⟨f, found, outlasts⟩ := Store.outlasts_steps (hs.run c call) steps stored
  have core : f.SameCore g := outlasts.core.trans core
  refine ⟨f, found, fun w _ record => ⟨?_, shown.congr core record⟩⟩
  rw [Entry.primaryPath_congr core record, Entry.primaryPath, built.effectivePath, valid.primary]

end Reconcile

namespace Sample

/-- Imports lead to files that the declared path could mean: one differs from it in case, and one is imported by it. -/
def crowded : Context := { context [] with
  world := { (context []).world with
    remote := {
      list := fun _ => .ok [main]
      file := fun _ _ path => .ok (([(Manifest.path, manifest), ("/m", "import \"M\"\nimport \"sub/t\"\ntask m \x7b\x7d"),
        ("/M", "task n \x7b\x7d"), ("/sub/t", "import \"m\"\ntask t \x7b\x7d"), ("/sub/m", "task o \x7b\x7d")].lookup
          path).map String.toUTF8) } } }

end Sample

namespace Reconcile

/-- Of three files that the declared path could mean, the one at that path is shown. -/
theorem sample_primary_shown :
    let o := run Sample.crowded Sample.registered.1 Sample.refresh
    (o.store.entries.flatMap fun e => e.versions.flatMap fun v =>
        (v.sourceFiles.filter (SourceFile.answersTo "/m")).map SourceFile.absolutePath) = ["/M", "/m", "/sub/m"] ∧
      ∃ x ∈ o.results, "main" ∈ x.added ∧ ∃ (p q : EntryPath) (source : VersionSource) (e : Entry) (v : Version),
        repositoryPath "org/repo" = .ok p ∧ q.sameRepository p = true ∧ x.entry = some q.toText ∧
          Sample.refresh.Finds Sample.crowded q.name "main" source ∧ o.store.entry? q = some e ∧
          e.version? "main" = some v ∧ ∀ later, o.store.Steps later → ∃ f, later.entry? q = some f ∧
            ∀ w, f.version? "main" = some w → { w with frozen := v.frozen } = v →
              f.primaryPath w = source.declaration.primaryDescriptorPath ∧
                f.ShowsJudged w (Sample.crowded.world.remote.text "org/repo" "main") := by
  intro o
  have added : o.results.any (fun x => x.added.contains "main") = true := by decide +kernel
  obtain ⟨x, hx, named⟩ := List.any_eq_true.mp added
  have named : "main" ∈ x.added := List.contains_iff_mem.mp named
  exact ⟨by decide +kernel, x, hx, named,
    shown_primary_judged Sample.registered.2 Sample.crowded Sample.refresh hx (.inl named)⟩

end Reconcile

end WorkflowCatalog
