import WorkflowCatalog.Proofs.Mirrors
import WorkflowCatalog.Proofs.Remotes

/-!
# How versions are judged

A version that is built is judged in the categories of its language, and in no other. Whether it passes in one of them
is settled by what the repository has at its reference: every build judges all categories anew, so nothing is left of
what earlier builds came to.
-/
namespace WorkflowCatalog

open Fetch Sync

/-- The categories in which versions of a language are judged, in order. -/
def Language.categories (l : Language) : List Category :=
  if l = .service then [.manifest, .descriptor l, .imports] else [.manifest, .descriptor l, .testParameters, .imports]

theorem Language.mem_categories {l : Language} {k : Category} :
    k ∈ l.categories ↔ k = .manifest ∨ k = .descriptor l ∨ k = .imports ∨ l ≠ .service ∧ k = .testParameters := by
  unfold categories
  split
  · simp [*]
  · simp only [List.mem_cons, List.not_mem_nil, or_false]
    tauto

theorem Language.testType?_eq_none_iff {l : Language} : l.testType? = none ↔ l = .service := by
  cases l <;> simp [testType?]

theorem Language.isAscending_categories (l : Language) : Ascending.IsAscending Category.rank l.categories := by
  unfold Ascending.IsAscending
  cases l <;> decide

/-- What it takes to pass in a category: what the repository has at the reference of the source. -/
def Category.Passes (c : Context) (repository : String) (s : VersionSource) : Category → Prop
  | .manifest => True
  | .descriptor l => ∃ text,
    c.world.remote.text repository s.remote.name s.declaration.primaryDescriptorPath = .ok (some text) ∧
      l.check text = .ok ()
  | .testParameters => ∀ path ∈ s.declaration.testParameterFiles, ∃ text,
    c.world.remote.text repository s.remote.name path = .ok (some text)
  | .imports =>
    c.world.remote.text repository s.remote.name s.declaration.primaryDescriptorPath = .ok none ∨
      ∃ text resolved,
        c.world.remote.text repository s.remote.name s.declaration.primaryDescriptorPath = .ok (some text) ∧
        resolveImports (s.declaration.language.importsFrom s.declaration.primaryDescriptorPath)
          (c.world.remote.text repository s.remote.name) c.now c.options.maxImportDepth
          s.declaration.primaryDescriptorPath text = .ok resolved ∧
        resolved.missing = []

/-! ## Collecting judgments -/

namespace Validation

/-- What a list of judgments says in a category, if it says anything. -/
def verdict? (vs : List Validation) (k : Category) : Option Bool :=
  (vs.find? fun v => v.rank == k.rank).map isValid

@[simp] theorem verdict?_nil (k : Category) : verdict? [] k = none := rfl

/-- A pass counts only where there is no judgment yet. -/
theorem verdict?_pass {vs : List Validation} (h : Ascending.IsAscending rank vs) (c k : Category) :
    verdict? (pass vs c) k = (verdict? vs k).or (if c = k then some true else none) := by
  unfold verdict? pass
  rw [Ascending.find?_offer h, Option.map_or]
  simp only [rank_eq_iff]
  change _ = (Option.map isValid _).or (if (valid c).category = k then _ else _)
  split <;> rfl

/-- A failure counts in any case. -/
theorem verdict?_fail (vs : List Validation) (c : Category) (message : String) (k : Category) :
    verdict? (fail vs c message) k = if c = k then some false else verdict? vs k := by
  have put (m : String) : verdict? (Ascending.put rank (invalid c m) vs) k =
      if c = k then some false else verdict? vs k := by
    unfold verdict?
    rw [Ascending.find?_put]
    simp only [rank_eq_iff]
    change Option.map isValid (if c = k then _ else _) = _
    split <;> rfl
  unfold fail
  split <;> exact put _

/-- Of two judgments in one category the new one counts. -/
theorem verdict?_aggregate {existing new : List Validation} (h : Ascending.IsAscending rank new) {k : Category}
    (judged : (verdict? new k).isSome = true) : verdict? (aggregate existing new) k = verdict? new k := by
  unfold verdict? at judged ⊢
  rw [Option.isSome_map] at judged
  rw [aggregate, Ascending.find?_lastOf, List.reverse_append, List.find?_append, h.find?_reverse]
  congr 1
  exact Option.or_of_isSome judged

/-- All judgments are in these categories. -/
def Within (ks : List Category) (vs : List Validation) : Prop := ∀ v ∈ vs, v.category ∈ ks

theorem Within.pass {ks : List Category} {vs : List Validation} (h : Within ks vs) {c : Category} (hc : c ∈ ks) :
    Within ks (pass vs c) := fun v hv => by
  obtain rfl | hv := Ascending.mem_of_mem_offer hv
  · exact hc
  · exact h v hv

theorem Within.fail {ks : List Category} {vs : List Validation} (h : Within ks vs) {c : Category} (hc : c ∈ ks)
    (message : String) : Within ks (fail vs c message) := by
  have put (m : String) : Within ks (Ascending.put rank (invalid c m) vs) := fun v hv => by
    obtain rfl | hv := Ascending.mem_of_mem_put hv
    · exact hc
    · exact h v hv
  unfold Validation.fail
  split <;> exact put _

theorem Within.aggregate {ks : List Category} {existing new : List Validation} (h : Within ks existing)
    (hn : Within ks new) : Within ks (aggregate existing new) := fun v hv =>
  (List.mem_append.mp (Ascending.mem_of_mem_lastOf hv)).elim (h v) (hn v)

theorem isSome_verdict?_iff {vs : List Validation} {k : Category} :
    (verdict? vs k).isSome = true ↔ ∃ v ∈ vs, v.category = k := by
  rw [verdict?, Option.isSome_map, List.find?_isSome]
  simp only [beq_iff_eq, rank_eq_iff]

theorem verdict?_of_mem {vs : List Validation} (h : Ascending.IsAscending rank vs) {v : Validation} (hv : v ∈ vs) :
    verdict? vs v.category = some v.isValid :=
  congrArg (Option.map isValid) (h.mem_iff_find?.mp hv)

end Validation

open Validation

/-- The judgments are on these categories and no others, and pass where the condition of the category holds. -/
structure Validation.Judges (vs : List Validation) (ks : List Category) (P : Category → Prop) : Prop where
  ascending : Ascending.IsAscending rank vs
  judged : ∀ k, (verdict? vs k).isSome = true ↔ k ∈ ks
  passes : ∀ k ∈ ks, verdict? vs k = some true ↔ P k

namespace Validation.Judges

variable {vs vs' : List Validation} {ks : List Category} {P : Category → Prop}

theorem nil (P : Category → Prop) : Judges [] [] P :=
  ⟨List.Pairwise.nil, fun _ => by simp, fun _ hk => absurd hk List.not_mem_nil⟩

/-- One more category is judged, and the others are left alone. -/
theorem judge (h : Judges vs ks P) (ascending : Ascending.IsAscending rank vs') {c : Category} {b : Bool}
    (verdicts : ∀ k, verdict? vs' k = if c = k then some b else verdict? vs k) (passes : b = true ↔ P c) :
    Judges vs' (ks ++ [c]) P := by
  refine ⟨ascending, fun k => ?_, fun k hk => ?_⟩
  · rw [verdicts, List.mem_append, List.mem_singleton, ← h.judged]
    by_cases same : c = k
    · simp [same]
    · simp [same, Ne.symm same]
  · rw [verdicts]
    by_cases same : c = k
    · rw [if_pos same, Option.some.injEq, passes, same]
    · rw [if_neg same]
      refine h.passes k ((List.mem_append.mp hk).resolve_right fun new => ?_)
      exact same (List.mem_singleton.mp new).symm

theorem pass (h : Judges vs ks P) {c : Category} (new : c ∉ ks) (holds : P c) :
    Judges (Validation.pass vs c) (ks ++ [c]) P := by
  refine h.judge (b := true) (isAscending_pass h.ascending c) (fun k => ?_) (iff_of_true rfl holds)
  rw [verdict?_pass h.ascending]
  by_cases same : c = k
  · have unjudged : verdict? vs k = none := by
      rw [← Option.not_isSome_iff_eq_none, h.judged, ← same]
      exact new
    rw [if_pos same, if_pos same, unjudged, Option.none_or]
  · rw [if_neg same, if_neg same, Option.or_none]

/-- A pass in a category that has been judged changes nothing. -/
theorem pass_again (h : Judges vs ks P) {c : Category} (judged : c ∈ ks) : Judges (Validation.pass vs c) ks P := by
  have same (k : Category) : verdict? (Validation.pass vs c) k = verdict? vs k := by
    rw [verdict?_pass h.ascending]
    split
    · rename_i here
      exact Option.or_of_isSome (here ▸ (h.judged c).mpr judged)
    · exact Option.or_none
  exact ⟨isAscending_pass h.ascending c, fun k => by rw [same, h.judged], fun k hk => by rw [same, h.passes k hk]⟩

theorem fail (h : Judges vs ks P) {c : Category} (message : String) (holds : ¬ P c) :
    Judges (Validation.fail vs c message) (ks ++ [c]) P :=
  h.judge (b := false) (isAscending_fail h.ascending c message) (verdict?_fail vs c message)
    (iff_of_false Bool.false_ne_true holds)

/-- Only which categories are judged counts, not in what order. -/
theorem congr {ks' : List Category} (h : Judges vs ks P) (same : ∀ k, k ∈ ks ↔ k ∈ ks') : Judges vs ks' P :=
  ⟨h.ascending, fun k => (h.judged k).trans (same k), fun k hk => h.passes k ((same k).mpr hk)⟩

/-- Judgments on categories that are all judged anew leave nothing of what there was before. -/
theorem aggregate {existing : List Validation} (h : Judges vs ks P) (known : Within ks existing) :
    Judges (Validation.aggregate existing vs) ks P := by
  have anew : ∀ k ∈ ks, verdict? (Validation.aggregate existing vs) k = verdict? vs k :=
    fun k hk => verdict?_aggregate h.ascending ((h.judged k).mpr hk)
  have new : Within ks vs := fun v hv => (h.judged _).mp (isSome_verdict?_iff.mpr ⟨v, hv, rfl⟩)
  refine ⟨Ascending.isAscending_lastOf rank _, fun k => ⟨fun judged => ?_, fun hk => ?_⟩, fun k hk => ?_⟩
  · obtain ⟨v, hv, rfl⟩ := isSome_verdict?_iff.mp judged
    exact known.aggregate new v hv
  · rw [anew k hk]
    exact (h.judged k).mpr hk
  · rw [anew k hk]
    exact h.passes k hk

/-- There is one judgment in each of the categories. -/
theorem map_category (h : Judges vs ks P) (ascending : Ascending.IsAscending Category.rank ks) :
    vs.map Validation.category = ks := by
  refine Ascending.IsAscending.eq_of_mem_iff (List.pairwise_map.mpr h.ascending) ascending fun k => ?_
  rw [List.mem_map, ← h.judged, isSome_verdict?_iff]

theorem isValid_iff (h : Judges vs ks P) {v : Validation} (hv : v ∈ vs) : v.isValid = true ↔ P v.category := by
  have verdict := verdict?_of_mem h.ascending hv
  rw [← h.passes v.category ((h.judged _).mp (verdict ▸ rfl)), verdict, Option.some.injEq]

/-- All judgments are passes if the condition of every category holds. -/
theorem all_isValid_iff (h : Judges vs ks P) : vs.all isValid = true ↔ ∀ k ∈ ks, P k := by
  rw [List.all_eq_true]
  refine ⟨fun valid k hk => ?_, fun holds v hv => (h.isValid_iff hv).mpr ?_⟩
  · obtain ⟨v, hv, rfl⟩ := isSome_verdict?_iff.mp ((h.judged k).mpr hk)
    exact (h.isValid_iff hv).mp (valid v hv)
  · exact holds _ ((h.judged _).mp (isSome_verdict?_iff.mpr ⟨v, hv, rfl⟩))

end Validation.Judges

namespace Build

variable {c : Context} {repository : String} {s : VersionSource} {vs vs' : List Validation} {ks : List Category}

theorem judges_judge {P : Category → Prop} (h : Judges vs ks P) {l : Language} (text path : String)
    (new : Category.descriptor l ∉ ks) (holds : P (.descriptor l) ↔ l.check text = .ok ()) :
    Judges (judge l path text vs) (ks ++ [.descriptor l]) P := by
  unfold judge
  split
  · rename_i accepted
    exact h.pass new (holds.mpr accepted)
  · rename_i err refused
    exact h.fail _ fun passes => nomatch (holds.mp passes).symm.trans refused

theorem judges_judgeImports {P : Category → Prop} (h : Judges vs ks P) {missing : List String}
    (new : Category.imports ∉ ks) (holds : P .imports ↔ missing = []) :
    Judges (judgeImports missing vs) (ks ++ [.imports]) P := by
  unfold judgeImports
  split
  · rename_i complete
    exact h.pass new (holds.mpr (List.isEmpty_iff.mp complete))
  · rename_i incomplete
    exact h.fail _ fun passes => incomplete (List.isEmpty_iff.mpr (holds.mp passes))

/-- The descriptor and its imports are judged, whether the descriptor is there or not. -/
theorem judges_descriptorFiles {files : List SourceFile} (valid : s.declaration.WellFormed)
    (manifest : c.world.remote.text repository s.remote.name Manifest.path = .ok (some s.manifestText))
    (h : Judges vs [.manifest] (Category.Passes c repository s))
    (answer : (descriptorFiles c repository s.remote.name s.declaration.primaryDescriptorPath s.declaration.language
      s.manifestText vs).answer = .ok (files, vs')) :
    Judges vs' [.manifest, .descriptor s.declaration.language, .imports] (Category.Passes c repository s) := by
  have primary : (primaryText c repository s.remote.name s.declaration.primaryDescriptorPath s.declaration.language
      s.manifestText).answer =
        c.world.remote.text repository s.remote.name s.declaration.primaryDescriptorPath :=
    answer_primaryText fun service => valid.service service ▸ manifest
  obtain ⟨absent, -, rfl⟩ | ⟨text, resolved, there, followed, -, rfl⟩ := descriptorFiles_cases answer
  · rw [primary] at absent
    refine (h.fail _ ?_).pass (by simp) (.inl absent)
    rintro ⟨text, present, -⟩
    exact nomatch absent.symm.trans present
  · rw [primary] at there
    refine judges_judgeImports (judges_judge h text _ (by simp) ?_) (by simp) ?_
    · refine ⟨?_, fun accepted => ⟨text, there, accepted⟩⟩
      rintro ⟨text', present, accepted⟩
      obtain rfl := Option.some.inj (Except.ok.inj (there.symm.trans present))
      exact accepted
    · refine ⟨?_, fun complete => .inr ⟨text, resolved, there, followed, complete⟩⟩
      rintro (absent | ⟨text', resolved', present, followed', complete⟩)
      · exact nomatch there.symm.trans absent
      · obtain rfl := Option.some.inj (Except.ok.inj (there.symm.trans present))
        obtain rfl := Except.ok.inj (followed.symm.trans followed')
        exact complete

/-- Test parameter files are judged only where one of them is not there. -/
theorem judges_testFiles {P : Category → Prop} {reference : String} {type : FileType} {paths : List String}
    {files : List SourceFile} (h : Judges vs ks P)
    (needed : ∀ path ∈ paths, P .testParameters →
      ∃ text, c.world.remote.text repository reference (Path.normalize path) = .ok (some text))
    (answer : (testFiles c repository reference type paths vs).answer = .ok (files, vs')) :
    ((∀ path ∈ paths, ∃ text, c.world.remote.text repository reference (Path.normalize path) = .ok (some text)) ∧
        vs' = vs) ∨
      Judges vs' (ks ++ [.testParameters]) P := by
  induction paths generalizing vs vs' ks files with
  | nil =>
    obtain ⟨-, rfl⟩ := Prod.mk.inj (Except.ok.inj answer)
    exact .inl ⟨fun _ hp => absurd hp List.not_mem_nil, rfl⟩
  | cons path paths ih =>
    rw [List.forall_mem_cons] at needed
    obtain ⟨absent, answer⟩ | ⟨text, rest, there, answer, -⟩ := testFiles_cons_cases answer
    · have failed := h.fail (path ++ " not found") fun passes => by
        obtain ⟨text, present⟩ := needed.1 passes
        exact nomatch absent.symm.trans present
      obtain ⟨-, rfl⟩ | judged := ih failed needed.2 answer
      · exact .inr failed
      · exact .inr (judged.congr fun k => by simp)
    · exact (ih h needed.2 answer).imp_left fun ⟨all, same⟩ => ⟨List.forall_mem_cons.mpr ⟨⟨text, there⟩, all⟩, same⟩

/-- Test parameter files are judged for all languages that have such files. -/
theorem judges_parameterFiles {files : List SourceFile} (valid : s.declaration.WellFormed)
    (h : Judges vs [.manifest, .descriptor s.declaration.language, .imports] (Category.Passes c repository s))
    (answer : (parameterFiles c repository s.remote.name s.declaration.language s.declaration.testParameterFiles
      vs).answer = .ok (files, vs')) :
    Judges vs' s.declaration.language.categories (Category.Passes c repository s) := by
  unfold Language.categories
  obtain ⟨none, -, rfl⟩ | ⟨type, judged, test, tested, rfl⟩ := parameterFiles_cases answer
  · rw [if_pos (Language.testType?_eq_none_iff.mp none)]
    exact h
  · rw [if_neg fun service => nomatch test.symm.trans (Language.testType?_eq_none_iff.mpr service)]
    have passed : Judges (Validation.pass judged .testParameters)
        ([.manifest, .descriptor s.declaration.language, .imports] ++ [.testParameters])
        (Category.Passes c repository s) := by
      obtain ⟨all, rfl⟩ | failed := judges_testFiles h
        (fun path hp passes => (valid.tests path hp).symm ▸ passes path hp) tested
      · exact h.pass (by simp) fun path hp => valid.tests path hp ▸ all path hp
      · exact failed.pass_again (by simp)
    refine passed.congr fun k => ?_
    simp only [List.mem_append, List.mem_cons, List.not_mem_nil, or_false]
    tauto

/-- A version that is built is judged by what there is, whatever was thought of it before. -/
theorem IsBuilt.judges {e : Entry} {v : Version} {files : List SourceFile} {checks : List Validation}
    (h : IsBuilt c e s v files checks) (valid : s.declaration.WellFormed)
    (manifest : c.world.remote.text e.path.repositoryPath s.remote.name Manifest.path = .ok (some s.manifestText))
    (known : Within e.language.categories (outline e s).validations) :
    Judges v.validations e.language.categories (Category.Passes c e.path.repositoryPath s) := by
  obtain ⟨descriptors, tests, judged, hd, ht, -⟩ := parts_of_collect h.collected
  rw [effectivePath_outline, valid.primary, ← h.language] at hd
  rw [← h.language] at ht known ⊢
  have first : Judges (Validation.pass [] .manifest) [.manifest] (Category.Passes c e.path.repositoryPath s) :=
    (Judges.nil _).pass List.not_mem_nil trivial
  rw [h.eq]
  exact (judges_parameterFiles valid (judges_descriptorFiles valid manifest first hd) ht).aggregate known

/-! ## Where judgments are kept -/

theorem within_judge {l : Language} (h : Within ks vs) (hc : Category.descriptor l ∈ ks) (path text : String) :
    Within ks (judge l path text vs) := by
  unfold judge
  split
  · exact h.pass hc
  · exact h.fail hc _

theorem within_judgeImports (h : Within ks vs) (hc : Category.imports ∈ ks) (missing : List String) :
    Within ks (judgeImports missing vs) := by
  unfold judgeImports
  split
  · exact h.pass hc
  · exact h.fail hc _

theorem within_testFiles {reference : String} {type : FileType} {paths : List String} {files : List SourceFile}
    (h : Within ks vs) (hc : Category.testParameters ∈ ks)
    (answer : (testFiles c repository reference type paths vs).answer = .ok (files, vs')) : Within ks vs' := by
  induction paths generalizing vs files with
  | nil =>
    obtain ⟨-, rfl⟩ := Prod.mk.inj (Except.ok.inj answer)
    exact h
  | cons path paths ih =>
    obtain ⟨-, answer⟩ | ⟨_, _, -, answer, -⟩ := testFiles_cons_cases answer
    · exact ih (h.fail hc _) answer
    · exact ih h answer

/-- What is collected is judged in the categories of the language of the entry, whatever was declared. -/
theorem within_collect {e : Entry} {v : Version} {files : List SourceFile} {checks : List Validation}
    (h : (collect c e v s).answer = .ok (files, checks)) : Within e.language.categories checks := by
  obtain ⟨descriptors, tests, judged, hd, ht, -⟩ := parts_of_collect h
  have member {k : Category} := Language.mem_categories (l := e.language) (k := k)
  have manifest : Within e.language.categories (Validation.pass [] .manifest) :=
    Within.pass (fun _ hv => absurd hv List.not_mem_nil) (member.mpr (.inl rfl))
  have descriptor : Category.descriptor e.language ∈ e.language.categories := member.mpr (.inr (.inl rfl))
  have imports : Category.imports ∈ e.language.categories := member.mpr (.inr (.inr (.inl rfl)))
  have found : Within e.language.categories judged := by
    obtain ⟨-, -, rfl⟩ | ⟨_, _, -, -, -, rfl⟩ := descriptorFiles_cases hd
    · exact (manifest.fail descriptor _).pass imports
    · exact within_judgeImports (within_judge manifest descriptor _ _) imports _
  obtain ⟨-, -, rfl⟩ | ⟨type, tested, test, answer, rfl⟩ := parameterFiles_cases ht
  · exact found
  · have parameters : Category.testParameters ∈ e.language.categories := by
      refine member.mpr (.inr (.inr (.inr ⟨fun service => ?_, rfl⟩)))
      exact nomatch test.symm.trans (Language.testType?_eq_none_iff.mpr service)
    exact (within_testFiles found parameters answer).pass parameters

end Build

/-- All judgments on the versions of the entry are in the categories of its language. -/
def Entry.IsJudged (e : Entry) : Prop := ∀ v ∈ e.versions, Within e.language.categories v.validations

theorem Build.within_outline {e : Entry} {s : VersionSource} {ks : List Category}
    (h : ∀ v, e.version? s.remote.name = some v → Within ks v.validations) : Within ks (outline e s).validations := by
  change Within ks ((e.version? s.remote.name).getD (.ofRemote s.remote e.language)).validations
  cases found : e.version? s.remote.name with
  | some v => exact h v found
  | none => exact fun _ hv => absurd hv List.not_mem_nil

theorem Entry.IsJudged.version? {e : Entry} (h : e.IsJudged) {n : String} {v : Version} (found : e.version? n = some v) :
    Within e.language.categories v.validations := h v (List.mem_of_find?_eq_some found)

theorem Entry.IsJudged.upsert {e : Entry} (h : e.IsJudged) {v : Version}
    (hv : Within e.language.categories v.validations) : (e.upsert v).IsJudged := by
  intro w hw
  obtain rfl | hw := Keyed.mem_of_mem_upsert hw
  · exact hv
  · exact h w hw

/-- No entry has a judgment in a category of another language, whatever was done to it. -/
theorem Entry.invariant_isJudged : Invariant Entry.IsJudged where
  new _ _ := fun _ hv => absurd hv List.not_mem_nil
  settings _ h := h
  built {c e s v} h answer := by
    obtain ⟨files, checks, hb⟩ := Build.isBuilt_of_answer answer
    refine h.upsert ?_
    rw [hb.eq]
    exact (Build.within_outline fun v => h.version?).aggregate (Build.within_collect hb.collected)
  removed _ h := fun v hv => h v (List.mem_of_mem_eraseP hv)
  frozen {e name v} h found := h.upsert (show Within _ v.validations from h.version? found)

/-! ## What a call leaves -/

/-- The version has one judgment in each category of the language, which is a pass if the repository has what that
takes; so the version is valid if it has what all of them take. -/
structure Version.IsJudgedBy (c : Context) (repository : String) (s : VersionSource) (l : Language) (v : Version) :
    Prop where
  categories : v.validations.map Validation.category = l.categories
  verdicts : ∀ x ∈ v.validations, x.isValid = true ↔ x.category.Passes c repository s
  valid : v.isValid = true ↔ ∀ k ∈ l.categories, k.Passes c repository s

namespace Reconcile

/-- In a catalog that can come about, each version that a result of a call tells of as added or updated is judged in all
categories of the language of its entry by what the repository has at the reference that the call follows, and in no
other category. Nothing is left of what earlier builds came to. -/
theorem told_version_judged {s : Store} (h : s.Reachable) (c : Context) (call : Call) {x : SyncResult}
    (hx : x ∈ (run c s call).results) {n : String} (hn : n ∈ x.added ∨ n ∈ x.updated) :
    ∃ (p q : EntryPath) (source : VersionSource) (e : Entry) (v : Version),
      repositoryPath call.repository = .ok p ∧ q.sameRepository p = true ∧ x.entry = some q.toText ∧
        (run c s call).store.entry? q = some e ∧ e.version? n = some v ∧ call.Finds c q.name n source ∧
        v.IsJudgedBy c call.repository source e.language := by
  have hs := h.wellFormed
  obtain ⟨isNew, hn⟩ : ∃ isNew, n ∈ told isNew x := hn.elim (fun h => ⟨true, h⟩) fun h => ⟨false, h⟩
  obtain ⟨js, planned, j, hj, _, _, _, part, hx⟩ := part_of_told hs hx hn
  obtain ⟨entry, e, f, v, source, files, checks, saved, version, hsource, built, path, earlier, core, same⟩ :=
    part.effect.built (fun e found => (hs.entry?_eq_some_iff.mp found).2)
      (fun e found => (hs.entries.entry? found).distinct) hx hn
  obtain ⟨p, repository, paths⟩ := planned.path_of_jobs
  have finds := planned.finds hj hsource
  have stored : (run c s call).store.entry? j.path = some e := by
    rw [part.entry?, saved]
    rfl
  have address : f.path.repositoryPath = call.repository := by
    rw [path]
    exact planned.address_jobs j hj
  have valid : source.declaration.WellFormed := by
    obtain ⟨m, parsed, declared⟩ := finds.declared
    exact (Manifest.wellFormed_of_parse parsed).entries _ ((Manifest.entry?_eq_some_iff parsed).mp declared).1
  have manifest : c.world.remote.text f.path.repositoryPath source.remote.name Manifest.path =
      .ok (some source.manifestText) := by
    rw [address, finds.name]
    exact finds.text
  have known : Within f.language.categories (Build.outline f source).validations := by
    refine Build.within_outline fun w found => ?_
    rw [finds.name, earlier] at found
    obtain ⟨g, hg, found⟩ := Option.bind_eq_some_iff.mp found
    have judged : g.IsJudged := Store.All.entry? (Entry.invariant_isJudged.reachable h) hg
    exact (same g hg).language ▸ judged.version? found
  have judges := built.judges valid manifest known
  rw [address, ← core.language] at judges
  exact ⟨p, j.path, source, e, v, repository, EntryPath.sameRepository_iff.mpr (paths j hj), entry, stored, version,
    finds, judges.map_category e.language.isAscending_categories, fun x hx => judges.isValid_iff hx,
    judges.all_isValid_iff⟩

/-- The branch of the small catalog was valid, and is not once it has moved to where an imported file is not there. -/
theorem sample_version_judged :
    let c := Sample.context [{ Sample.main with commitId := "c2" }]
    let c := c.withRemote { c.world.remote with
      file := fun repository n path => if path = "/t" then .ok none else c.world.remote.file repository n path }
    let o := run c Sample.refreshed.1 Sample.refresh
    let verdict (s : Store) := ((s.entry? Sample.path).bind fun e => e.version? "main").map Version.isValid
    verdict Sample.refreshed.1 = some true ∧ verdict o.store = some false ∧
      ∃ x ∈ o.results, "main" ∈ x.updated ∧ ∃ (p q : EntryPath) (source : VersionSource) (e : Entry) (v : Version),
        repositoryPath "org/repo" = .ok p ∧ q.sameRepository p = true ∧ x.entry = some q.toText ∧
          o.store.entry? q = some e ∧ e.version? "main" = some v ∧ Sample.refresh.Finds c q.name "main" source ∧
          v.IsJudgedBy c "org/repo" source e.language := by
  intro _ c o verdict
  have updated : o.results.any (fun x => x.updated.contains "main") = true := by decide +kernel
  obtain ⟨x, hx, named⟩ := List.any_eq_true.mp updated
  have named : "main" ∈ x.updated := List.contains_iff_mem.mp named
  refine ⟨by decide +kernel, by decide +kernel, x, hx, named, ?_⟩
  exact told_version_judged Sample.refreshed.2 c Sample.refresh hx (.inr named)

end Reconcile

end WorkflowCatalog
