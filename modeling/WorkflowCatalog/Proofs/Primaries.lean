import WorkflowCatalog.Descriptor.Resolver
import WorkflowCatalog.Proofs.Catalog

/-!
# The primary descriptor among stored files

The file at the declared path itself stands for a version. Where there is none, the lowest of the files that the path
could mean does: those at the path, or imported by it, ignoring case. As files differ in kind or place, their order is
of no matter. That a file was imported by exactly the declared path does not count for more than the case of letters.
-/
namespace WorkflowCatalog

theorem Text.equalsIgnoringCase_iff {a b : String} : equalsIgnoringCase a b = true ↔ lowercase a = lowercase b := by
  rw [equalsIgnoringCase, lowercase, lowercase, beq_iff_eq, String.ofList_inj]

namespace SourceFile

variable {type : FileType} {path declared : String} {files : List SourceFile} {f g : SourceFile}

/-- A file that the path could mean, as it is at the path or imported by it, ignoring case. -/
def IsCandidate (type : FileType) (path : String) (f : SourceFile) : Prop :=
  f.type = type ∧ (Text.lowercase f.absolutePath = Text.lowercase path ∨
    Text.lowercase (Path.normalize f.path) = Text.lowercase path)

/-- A file that is at the path or imported by it, case included. -/
def IsExact (type : FileType) (path : String) (f : SourceFile) : Prop :=
  f.type = type ∧ (f.absolutePath = path ∨ Path.normalize f.path = path)

instance : Decidable (IsExact type path f) :=
  inferInstanceAs (Decidable (f.type = type ∧ (f.absolutePath = path ∨ Path.normalize f.path = path)))

theorem IsExact.isCandidate (h : f.IsExact type path) : f.IsCandidate type path :=
  ⟨h.1, h.2.imp (congrArg Text.lowercase) (congrArg Text.lowercase)⟩

theorem answersTo_iff : f.answersTo path = true ↔ Text.lowercase f.absolutePath = Text.lowercase path ∨
    Text.lowercase (Path.normalize f.path) = Text.lowercase path := by
  rw [answersTo, Bool.or_eq_true, Text.equalsIgnoringCase_iff, Text.equalsIgnoringCase_iff]

theorem mem_candidates : f ∈ (ofType type files).filter (answersTo path) ↔ f ∈ files ∧ f.IsCandidate type path := by
  rw [List.mem_filter, ofType, List.mem_filter, beq_iff_eq, answersTo_iff, and_assoc, IsCandidate]

/-! ## The lowest file -/

theorem lowest?_eq_none_iff : lowest? files = none ↔ files = [] := by
  cases files with
  | nil => exact iff_of_true rfl rfl
  | cons f files =>
    refine iff_of_false (fun h => ?_) (List.cons_ne_nil f files)
    unfold lowest? at h
    split at h
    · split at h <;> exact nomatch h
    · exact nomatch h

theorem lowest?_eq_some (h : lowest? files = some f) : f ∈ files ∧ ∀ g ∈ files, f.absolutePath ≤ g.absolutePath := by
  induction files generalizing f with
  | nil => exact nomatch h
  | cons first files ih =>
    unfold lowest? at h
    cases rest : lowest? files with
    | none =>
      rw [rest] at h
      obtain rfl := Option.some.inj h
      rw [lowest?_eq_none_iff.mp rest]
      exact ⟨List.mem_cons_self, List.forall_mem_singleton.mpr (String.le_refl _)⟩
    | some least =>
      obtain ⟨member, below⟩ := ih rest
      rw [rest] at h
      dsimp only at h
      split at h
      · rename_i lower
        obtain rfl := Option.some.inj h
        exact ⟨List.mem_cons_of_mem first member, List.forall_mem_cons.mpr ⟨Std.le_of_lt lower, below⟩⟩
      · rename_i higher
        obtain rfl := Option.some.inj h
        refine ⟨List.mem_cons_self, List.forall_mem_cons.mpr ⟨String.le_refl _, fun g hg => ?_⟩⟩
        exact String.le_trans (String.not_lt.mp higher) (below g hg)

/-! ## The primary descriptor -/

/-- The file at the path itself, or else the lowest that the path could mean. -/
structure StandsFor (type : FileType) (path : String) (files : List SourceFile) (f : SourceFile) : Prop where
  member : f ∈ files
  candidate : f.IsCandidate type path
  preferred : f.absolutePath = path ∨
    ∀ g ∈ files, g.IsCandidate type path → g.absolutePath ≠ path ∧ f.absolutePath ≤ g.absolutePath

theorem StandsFor.perm {others : List SourceFile} (h : f.StandsFor type path files) (same : files.Perm others) :
    f.StandsFor type path others :=
  ⟨same.mem_iff.mp h.member, h.candidate, h.preferred.imp_right fun least g hg => least g (same.mem_iff.mpr hg)⟩

/-- Files of one kind are told apart by their paths. -/
theorem eq_of_absolutePath_eq (distinct : (files.map key).Nodup) (hf : f ∈ files) (hg : g ∈ files)
    (kind : f.type = g.type) (place : f.absolutePath = g.absolutePath) : f = g := by
  have same : f.key = g.key := by rw [key, key, kind, place]
  have found := (Keyed.find?_eq_some_iff distinct).mpr ⟨hf, same⟩
  exact Option.some.inj (found.symm.trans ((Keyed.find?_eq_some_iff distinct).mpr ⟨hg, rfl⟩))

theorem StandsFor.unique (distinct : (files.map key).Nodup) (hf : f.StandsFor type path files)
    (hg : g.StandsFor type path files) : f = g := by
  refine eq_of_absolutePath_eq distinct hf.member hg.member (hf.candidate.1.trans hg.candidate.1.symm) ?_
  rcases hf.preferred with here | least
  · rcases hg.preferred with there | least
    · rw [here, there]
    · exact absurd here (least f hf.member hf.candidate).1
  · rcases hg.preferred with there | least'
    · exact absurd there (least g hg.member hg.candidate).1
    · exact String.le_antisymm (least g hg.member hg.candidate).2 (least' f hf.member hf.candidate).2

theorem primary?_eq_or :
    primary? type declared files =
      (((ofType type files).filter (answersTo (Path.normalize declared))).find?
        fun f => f.absolutePath == Path.normalize declared).or
        (lowest? ((ofType type files).filter (answersTo (Path.normalize declared)))) := by
  unfold primary?
  dsimp only
  cases ((ofType type files).filter (answersTo (Path.normalize declared))).find? fun f =>
    f.absolutePath == Path.normalize declared <;> rfl

theorem primary?_eq_none_iff :
    primary? type declared files = none ↔ ∀ f ∈ files, ¬ f.IsCandidate type (Path.normalize declared) := by
  have absent : lowest? ((ofType type files).filter (answersTo (Path.normalize declared))) = none ↔
      ∀ f ∈ files, ¬ f.IsCandidate type (Path.normalize declared) := by
    rw [lowest?_eq_none_iff, List.eq_nil_iff_forall_not_mem]
    exact forall_congr' fun f => by rw [mem_candidates, not_and]
  rw [← absent, primary?_eq_or, Option.or_eq_none_iff, and_iff_right_iff_imp, lowest?_eq_none_iff]
  intro empty
  rw [empty, List.find?_nil]

theorem standsFor_of_primary? (h : primary? type declared files = some f) :
    f.StandsFor type (Path.normalize declared) files := by
  rw [primary?_eq_or, Option.or_eq_some_iff] at h
  rcases h with found | ⟨absent, least⟩
  · obtain ⟨member, candidate⟩ := mem_candidates.mp (List.mem_of_find?_eq_some found)
    exact ⟨member, candidate, .inl (by simpa using List.find?_some found)⟩
  · obtain ⟨listed, below⟩ := lowest?_eq_some least
    obtain ⟨member, candidate⟩ := mem_candidates.mp listed
    refine ⟨member, candidate, .inr fun g hg other => ?_⟩
    have among := mem_candidates.mpr ⟨hg, other⟩
    exact ⟨by simpa using List.find?_eq_none.mp absent g among, below g among⟩

theorem primary?_eq_some_iff (distinct : (files.map key).Nodup) :
    primary? type declared files = some f ↔ f.StandsFor type (Path.normalize declared) files := by
  refine ⟨standsFor_of_primary?, fun h => ?_⟩
  cases found : primary? type declared files with
  | none => exact absurd h.candidate (primary?_eq_none_iff.mp found f h.member)
  | some g => rw [(standsFor_of_primary? found).unique distinct h]

/-- The file of the kind that is at the declared path is the primary descriptor, whatever else there is. -/
theorem primary?_of_absolutePath_eq (distinct : (files.map key).Nodup) (hf : f ∈ files) (kind : f.type = type)
    (place : f.absolutePath = Path.normalize declared) : primary? type declared files = some f :=
  (primary?_eq_some_iff distinct).mpr ⟨hf, ⟨kind, .inl (congrArg Text.lowercase place)⟩, .inl place⟩

/-- Where files differ in kind or place, a primary descriptor is found if there is a file that the declared path could
mean, in whatever order the files are listed. It is the file at the path itself if there is one, and otherwise the lowest
that the path could mean. So it is an exact match if there is any, unless no file is at the path and it lies below all
files that were imported by exactly that path. -/
theorem primary?_prefers_place (distinct : (files.map key).Nodup) (type : FileType) (declared : String) :
    ((primary? type declared files).isSome = true ↔ ∃ f ∈ files, f.IsCandidate type (Path.normalize declared)) ∧
    (∀ others, others.Perm files → primary? type declared others = primary? type declared files) ∧
    ∀ f, primary? type declared files = some f →
      f ∈ files ∧ f.IsCandidate type (Path.normalize declared) ∧
      (∀ g ∈ files, g.type = type → g.absolutePath = Path.normalize declared → f = g) ∧
      ((∀ g ∈ files, g.type = type → g.absolutePath ≠ Path.normalize declared) →
        ∀ g ∈ files, g.IsCandidate type (Path.normalize declared) → f.absolutePath ≤ g.absolutePath) ∧
      ((∃ g ∈ files, g.IsExact type (Path.normalize declared)) → f.IsExact type (Path.normalize declared) ∨
        ∀ g ∈ files, g.IsExact type (Path.normalize declared) →
          g.absolutePath ≠ Path.normalize declared ∧ f.absolutePath < g.absolutePath) := by
  refine ⟨?_, fun others same => ?_, fun f found => ?_⟩
  · refine ⟨fun some_found => ?_, fun ⟨f, hf, candidate⟩ => Option.isSome_iff_ne_none.mpr fun absent => ?_⟩
    · obtain ⟨f, found⟩ := Option.isSome_iff_exists.mp some_found
      have stands := standsFor_of_primary? found
      exact ⟨f, stands.member, stands.candidate⟩
    · exact primary?_eq_none_iff.mp absent f hf candidate
  · ext f
    rw [primary?_eq_some_iff distinct, primary?_eq_some_iff ((same.map key).nodup_iff.mpr distinct)]
    exact ⟨fun h => h.perm same, fun h => h.perm same.symm⟩
  · have stands := standsFor_of_primary? found
    refine ⟨stands.member, stands.candidate, fun g hg kind place => ?_, fun absent g hg candidate => ?_, fun _ => ?_⟩
    · exact Option.some.inj (found.symm.trans (primary?_of_absolutePath_eq distinct hg kind place))
    · rcases stands.preferred with here | least
      · exact absurd here (absent f stands.member stands.candidate.1)
      · exact (least g hg candidate).2
    · by_cases exact_match : f.IsExact type (Path.normalize declared)
      · exact .inl exact_match
      · refine .inr fun g hg exact_other => ?_
        have least := stands.preferred.resolve_left fun here => exact_match ⟨stands.candidate.1, .inl here⟩
        obtain ⟨elsewhere, below⟩ := least g hg exact_other.isCandidate
        refine ⟨elsewhere, String.not_le.mp fun above => exact_match ?_⟩
        have same := eq_of_absolutePath_eq distinct stands.member hg (stands.candidate.1.trans exact_other.1.symm)
          (String.le_antisymm below above)
        exact same ▸ exact_other

end SourceFile

namespace Sample

/-- A descriptor that differs from the declared path in case. -/
def shouted : SourceFile := .fetched now .wdl "/A.wdl" "/A.wdl" ""

/-- A descriptor further down that was imported by the declared path. -/
def deeper : SourceFile := .fetched now .wdl "a.wdl" "/sub/a.wdl" ""

end Sample

namespace SourceFile

/-- A file that matches only if case is ignored is taken for the primary descriptor, though another one was imported by
exactly the declared path. -/
theorem sample_case_ignored :
    ([Sample.shouted, Sample.deeper].map key).Nodup ∧ Sample.deeper.IsExact .wdl (Path.normalize "/a.wdl") ∧
      ¬ Sample.shouted.IsExact .wdl (Path.normalize "/a.wdl") ∧
      primary? .wdl "/a.wdl" [Sample.shouted, Sample.deeper] = some Sample.shouted := by
  decide +kernel

/-- At the path by which it was imported, the descriptor further down would be preferred. -/
theorem sample_place_preferred :
    let files := [Sample.shouted, Sample.deeper]
    (files.map key).Nodup ∧ primary? .wdl "/sub/a.wdl" files = some Sample.deeper ∧
      ∀ others, others.Perm files → primary? .wdl "/sub/a.wdl" others = some Sample.deeper := by
  intro files
  have distinct : (files.map key).Nodup := by decide +kernel
  have found : primary? .wdl "/sub/a.wdl" files = some Sample.deeper := by decide +kernel
  refine ⟨distinct, found, fun others same => ?_⟩
  rw [(primary?_prefers_place distinct .wdl "/sub/a.wdl").2.1 others same, found]

end SourceFile

end WorkflowCatalog
