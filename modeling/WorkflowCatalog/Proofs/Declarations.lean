import Mathlib.Data.List.Forall2
import WorkflowCatalog.Proofs.Manifests

/-!
# Manifests that are right

A draft is right if it declares something, and one service at most, and if each declaration is right on its own: its
name is made of runs of letters and digits, its subclass is known, its paths are absolute and its patterns can be read.
No two declarations have one name, where a missing name counts as one. The drafts that are accepted are those that are
right, and each declaration of the manifest says what its draft does.
-/
namespace WorkflowCatalog

theorem exists_bind_eq_ok {ε α β : Type} {x : Except ε α} {f : α → Except ε β} :
    (∃ b, x >>= f = .ok b) ↔ ∃ a, x = .ok a ∧ ∃ b, f a = .ok b := by
  simp only [bind_eq_ok]
  exact ⟨fun ⟨b, a, ha, hb⟩ => ⟨a, ha, b, hb⟩, fun ⟨a, ha, b, hb⟩ => ⟨b, a, ha, hb⟩⟩

theorem toOption_eq_some_iff {ε α : Type} {x : Except ε α} {a : α} : x.toOption = some a ↔ x = .ok a := by
  cases x with
  | error e => exact iff_of_false nofun nofun
  | ok b => rw [Except.toOption, Option.some.injEq, Except.ok.injEq]

/-- Each member of a list is mapped on its own. -/
theorem mapM_eq_ok_iff {ε α β : Type} {f : α → Except ε β} {xs : List α} {ys : List β} :
    xs.mapM f = .ok ys ↔ List.Forall₂ (fun x y => f x = .ok y) xs ys := by
  induction xs generalizing ys with
  | nil =>
    rw [List.mapM_nil, List.forall₂_nil_left_iff]
    exact ⟨fun h => (Except.ok.inj h).symm, fun h => congrArg Except.ok h.symm⟩
  | cons x xs ih =>
    rw [List.mapM_cons, bind_eq_ok, List.forall₂_cons_left_iff]
    refine exists_congr fun y => ?_
    rw [bind_eq_ok]
    constructor
    · rintro ⟨hy, rest, hr, h⟩
      exact ⟨rest, hy, ih.mp hr, (Except.ok.inj h).symm⟩
    · rintro ⟨rest, hy, hr, rfl⟩
      exact ⟨hy, rest, ih.mpr hr, rfl⟩

theorem exists_mapM_eq_ok_iff {ε α β : Type} {f : α → Except ε β} {xs : List α} :
    (∃ ys, xs.mapM f = .ok ys) ↔ ∀ x ∈ xs, ∃ y, f x = .ok y := by
  simp only [mapM_eq_ok_iff]
  constructor
  · rintro ⟨ys, h⟩ x hx
    obtain ⟨i, hi, rfl⟩ := List.getElem_of_mem hx
    exact ⟨_, h.get hi (h.length_eq ▸ hi)⟩
  · intro h
    induction xs with
    | nil => exact ⟨[], .nil⟩
    | cons x xs ih =>
      rw [List.forall_mem_cons] at h
      obtain ⟨y, hy⟩ := h.1
      obtain ⟨ys, hys⟩ := ih h.2
      exact ⟨y :: ys, .cons hy hys⟩

theorem exists_of_forall₂ {α β : Type} {rel : α → β → Prop} {xs : List α} {ys : List β} (h : List.Forall₂ rel xs ys)
    {x : α} (member : x ∈ xs) : ∃ y ∈ ys, rel x y := by
  induction h with
  | nil => exact absurd member List.not_mem_nil
  | cons first _ ih =>
    rcases List.mem_cons.mp member with rfl | later
    · exact ⟨_, List.mem_cons_self, first⟩
    · obtain ⟨y, here, related⟩ := ih later
      exact ⟨y, List.mem_cons_of_mem _ here, related⟩

/-- Lists that agree in a label member by member agree in all labels. -/
theorem map_eq_of_forall₂ {α β γ : Type} {R : α → β → Prop} {f : α → γ} {g : β → γ} {xs : List α} {ys : List β}
    (h : List.Forall₂ R xs ys) (agree : ∀ x y, R x y → g y = f x) : ys.map g = xs.map f := by
  induction h with
  | nil => rfl
  | cons first _ ih => rw [List.map_cons, List.map_cons, agree _ _ first, ih]

namespace NamePattern

theorem exists_ofTexts_eq_ok_iff {patterns : List String} :
    (∃ ps, ofTexts patterns = .ok ps) ↔ ∀ pattern ∈ patterns, ∃ p, ofText pattern = .ok p := by
  rw [← exists_mapM_eq_ok_iff]
  unfold ofTexts
  split
  · rename_i none_listed
    rw [List.isEmpty_iff.mp none_listed]
    exact iff_of_true ⟨none, rfl⟩ ⟨[], rfl⟩
  · constructor
    · rintro ⟨ps, h⟩
      cases read : patterns.mapM ofText with
      | error e => rw [read] at h; exact nomatch h
      | ok found => exact ⟨found, rfl⟩
    · rintro ⟨found, read⟩
      exact ⟨some found, by rw [read]; rfl⟩

end NamePattern

theorem RefFilter.exists_ofTexts_eq_ok_iff {branches tags : List String} :
    (∃ f, ofTexts branches tags = .ok f) ↔ ∀ pattern ∈ branches ++ tags, ∃ p, NamePattern.ofText pattern = .ok p := by
  rw [List.forall_mem_append, ← NamePattern.exists_ofTexts_eq_ok_iff, ← NamePattern.exists_ofTexts_eq_ok_iff]
  unfold ofTexts
  simp only [bind_eq_ok]
  constructor
  · rintro ⟨f, bs, hb, ts, ht, -⟩
    exact ⟨⟨bs, hb⟩, ts, ht⟩
  · rintro ⟨⟨bs, hb⟩, ts, ht⟩
    exact ⟨⟨bs, ts⟩, bs, hb, ts, ht, rfl⟩

/-- The subclasses of workflows, in capitals. -/
def Language.subclasses : List String := ["CWL", "WDL", "NFL", "NEXTFLOW"]

theorem Language.exists_ofSubclass?_iff {s : String} :
    (∃ l, ofSubclass? s = some l) ↔ Text.uppercase s ∈ subclasses := by
  unfold ofSubclass? subclasses
  split <;> simp_all

namespace Manifest

/-! ## Names -/

/-- A run of letters and digits. -/
def IsRun (cs : List Char) : Prop := cs ≠ [] ∧ ∀ c ∈ cs, isNameChar c = true

/-- Runs of letters and digits with single marks between them. -/
inductive IsJoined : List Char → Prop
  | run {r : List Char} : IsRun r → IsJoined r
  | join {r rest : List Char} {mark : Char} : IsRun r → isNameMark mark = true → IsJoined rest →
      IsJoined (r ++ mark :: rest)

theorem IsRun.append_char {r : List Char} (h : IsRun r) {c : Char} (hc : isNameChar c = true) : IsRun (r ++ [c]) :=
  ⟨by simp, List.forall_mem_append.mpr ⟨h.2, List.forall_mem_singleton.mpr hc⟩⟩

/-- After a run another one may be joined, and at the start a run must come. -/
theorem isJoined_of_isNameFrom {cs : List Char} :
    (isNameFrom true cs = true → IsJoined cs) ∧
      (isNameFrom false cs = true → ∀ r, IsRun r → IsJoined (r ++ cs)) := by
  induction cs with
  | nil =>
    refine ⟨nofun, fun _ r hr => ?_⟩
    rw [List.append_nil]
    exact .run hr
  | cons c cs ih =>
    simp only [isNameFrom]
    split
    · rename_i hc
      refine ⟨fun h => ih.2 h [c] ⟨List.cons_ne_nil c [], List.forall_mem_singleton.mpr hc⟩, fun h r hr => ?_⟩
      rw [List.append_cons]
      exact ih.2 h _ (hr.append_char hc)
    · refine ⟨fun h => ?_, fun h r hr => ?_⟩
      · rw [Bool.not_true, Bool.and_false, Bool.false_and] at h
        exact nomatch h
      · rw [Bool.not_false, Bool.and_true, Bool.and_eq_true] at h
        exact .join hr h.1 (ih.1 h.2)

theorem isNameFrom_run {r : List Char} (h : IsRun r) (joined : Bool) (rest : List Char) :
    isNameFrom joined (r ++ rest) = isNameFrom false rest := by
  obtain ⟨nonempty, chars⟩ := h
  induction r generalizing joined with
  | nil => exact absurd rfl nonempty
  | cons c r ih =>
    rw [List.forall_mem_cons] at chars
    rw [List.cons_append, isNameFrom, if_pos chars.1]
    cases r with
    | nil => rfl
    | cons d r => exact ih false (List.cons_ne_nil d r) chars.2

theorem isNameChar_of_isNameMark {c : Char} (h : isNameMark c = true) : isNameChar c = false := by
  rw [isNameMark, Bool.or_eq_true, decide_eq_true_eq, decide_eq_true_eq] at h
  rcases h with rfl | rfl <;> decide

theorem isName_iff {name : String} : isName name = true ↔ IsJoined name.toList := by
  unfold isName
  generalize name.toList = cs
  refine ⟨isJoined_of_isNameFrom.1, fun h => ?_⟩
  induction h with
  | run hr =>
    have := isNameFrom_run hr true []
    rwa [List.append_nil] at this
  | @join r rest c hr mark _ ih =>
    have noChar : ¬ isNameChar c = true := by
      rw [isNameChar_of_isNameMark mark]
      exact Bool.false_ne_true
    rw [isNameFrom_run hr, isNameFrom, if_neg noChar, mark, ih]
    rfl

/-! ## What is right -/

structure WorkflowDraft.IsRight (w : WorkflowDraft) : Prop where
  name : ∀ n, w.name = some n → IsJoined n.toList
  subclass : ∃ s, w.subclass = some s ∧ Text.uppercase s ∈ Language.subclasses
  primary : ∃ path, w.primaryDescriptorPath = some path ∧ path.toList.head? = some '/'
  patterns : ∀ pattern ∈ w.branches ++ w.tags, ∃ p, NamePattern.ofText pattern = .ok p

structure ServiceDraft.IsRight (s : ServiceDraft) : Prop where
  name : ∀ n, s.name = some n → IsJoined n.toList
  subclass : ∃ t, s.subclass = some t ∧ Text.uppercase t ∈ serviceSubclasses
  patterns : ∀ pattern ∈ s.branches ++ s.tags, ∃ p, NamePattern.ofText pattern = .ok p

structure Draft.IsRight (d : Draft) : Prop where
  declares : d.workflows ≠ [] ∨ d.services ≠ []
  single : d.services.length ≤ 1
  names : (d.workflows.map WorkflowDraft.name ++ d.services.map ServiceDraft.name).Nodup
  workflows : ∀ w ∈ d.workflows, w.IsRight
  services : ∀ s ∈ d.services, s.IsRight

/-- The declaration says what was drafted of a workflow. -/
structure WorkflowDraft.Declares (w : WorkflowDraft) (d : Declaration) : Prop where
  kind : d.kind = .workflow
  name : d.name = w.name
  language : w.subclass.bind Language.ofSubclass? = some d.language
  serviceSubclass : d.serviceSubclass = none
  primary : w.primaryDescriptorPath.map Path.normalize = some d.primaryDescriptorPath
  tests : d.testParameterFiles = w.testParameterFiles.map Path.normalize
  files : d.files = []
  publish : d.publish = w.publish
  authors : d.authors = w.authors.filterMap AuthorDraft.display?
  filters : RefFilter.ofTexts w.branches w.tags = .ok d.filters

/-- The declaration says what was drafted of a service, whose primary descriptor is the manifest. -/
structure ServiceDraft.Declares (s : ServiceDraft) (d : Declaration) : Prop where
  kind : d.kind = .service
  name : d.name = s.name
  language : d.language = .service
  serviceSubclass : d.serviceSubclass = s.subclass.map Text.uppercase
  primary : d.primaryDescriptorPath = path
  tests : d.testParameterFiles = []
  files : d.files = s.files.map Path.normalize
  publish : d.publish = s.publish
  authors : d.authors = s.authors.filterMap AuthorDraft.display?
  filters : RefFilter.ofTexts s.branches s.tags = .ok d.filters

/-- The manifest has the workflows in order, and then the service. -/
def Draft.Declares (d : Draft) (m : Manifest) : Prop :=
  ∃ ws ss, m.entries = ws ++ ss ∧ List.Forall₂ WorkflowDraft.Declares d.workflows ws ∧
    List.Forall₂ ServiceDraft.Declares d.services ss

/-! ## What is accepted -/

theorem checkName_eq_ok_iff {kind : EntryKind} {name : Option String} {taken : List (Option String)} :
    checkName kind name taken = .ok () ↔ (∀ n, name = some n → IsJoined n.toList) ∧ name ∉ taken := by
  constructor
  · intro h
    refine ⟨?_, not_mem_of_checkName h⟩
    rintro n rfl
    unfold checkName at h
    dsimp only at h
    split at h
    · exact nomatch h
    · rename_i proper
      exact isName_iff.mp (by simpa using proper)
  · rintro ⟨proper, free⟩
    unfold checkName
    dsimp only
    rw [if_neg (show ¬ taken.contains name = true by simpa using free)]
    cases name with
    | none => rfl
    | some n =>
      dsimp only
      rw [isName_iff.mpr (proper n rfl)]
      rfl

theorem required_eq_ok_iff {label field : String} {value : Option String} {s : String} :
    required label field value = .ok s ↔ value = some s := by
  cases value with
  | none => exact iff_of_false nofun nofun
  | some t => simp [required]

theorem filter_eq_ok_iff {branches tags : List String} {f : RefFilter} :
    filter branches tags = .ok f ↔ RefFilter.ofTexts branches tags = .ok f := by
  unfold filter
  cases RefFilter.ofTexts branches tags with
  | error e => exact iff_of_false nofun nofun
  | ok g => rw [Except.ok.injEq, Except.ok.injEq]

variable {index : Nat} {taken : List (Option String)} {w : WorkflowDraft} {s : ServiceDraft} {d : Declaration}

theorem declares_of_workflow (h : workflow index taken w = .ok d) : w.IsRight ∧ w.name ∉ taken ∧ w.Declares d := by
  obtain ⟨_, checked, h⟩ := bind_eq_ok.mp h
  obtain ⟨name, free⟩ := checkName_eq_ok_iff.mp checked
  obtain ⟨subclass, hs, h⟩ := bind_eq_ok.mp h
  rw [required_eq_ok_iff] at hs
  dsimp only at h
  split at h
  · rename_i language known
    obtain ⟨_, hl, h⟩ := bind_eq_ok.mp h
    obtain rfl := Except.ok.inj hl
    obtain ⟨primary, hp, h⟩ := bind_eq_ok.mp h
    rw [required_eq_ok_iff] at hp
    split at h
    · cases h
    · rename_i absolute
      obtain ⟨filters, hf, h⟩ := bind_eq_ok.mp h
      rw [filter_eq_ok_iff] at hf
      obtain rfl := Except.ok.inj h
      refine ⟨⟨name, ⟨subclass, hs, Language.exists_ofSubclass?_iff.mp ⟨_, known⟩⟩, ⟨primary, hp, ?_⟩,
        RefFilter.exists_ofTexts_eq_ok_iff.mp ⟨filters, hf⟩⟩, free, ?_⟩
      · simpa [Path.isAbsolute] using absolute
      · exact ⟨rfl, rfl, by rw [hs]; exact known, rfl, by rw [hp]; rfl, rfl, rfl, rfl, rfl, hf⟩
  · cases h

theorem exists_workflow (h : w.IsRight) (free : w.name ∉ taken) : ∃ d, workflow index taken w = .ok d := by
  obtain ⟨subclass, hs, known⟩ := h.subclass
  obtain ⟨language, hl⟩ := Language.exists_ofSubclass?_iff.mpr known
  obtain ⟨primary, hp, absolute⟩ := h.primary
  obtain ⟨filters, hf⟩ := RefFilter.exists_ofTexts_eq_ok_iff.mpr h.patterns
  have absolute : Path.isAbsolute primary = true := by simpa [Path.isAbsolute] using absolute
  refine exists_bind_eq_ok.mpr ⟨_, checkName_eq_ok_iff.mpr ⟨h.name, free⟩, ?_⟩
  refine exists_bind_eq_ok.mpr ⟨subclass, required_eq_ok_iff.mpr hs, ?_⟩
  dsimp only
  rw [hl]
  refine exists_bind_eq_ok.mpr ⟨language, rfl, ?_⟩
  refine exists_bind_eq_ok.mpr ⟨primary, required_eq_ok_iff.mpr hp, ?_⟩
  rw [absolute]
  exact exists_bind_eq_ok.mpr ⟨filters, filter_eq_ok_iff.mpr hf, _, rfl⟩

theorem declares_of_service (h : service taken s = .ok d) : s.IsRight ∧ s.name ∉ taken ∧ s.Declares d := by
  obtain ⟨_, checked, h⟩ := bind_eq_ok.mp h
  obtain ⟨name, free⟩ := checkName_eq_ok_iff.mp checked
  obtain ⟨subclass, hs, h⟩ := bind_eq_ok.mp h
  rw [required_eq_ok_iff] at hs
  dsimp only at h
  split at h
  · exact nomatch h
  · rename_i known
    obtain ⟨filters, hf, h⟩ := bind_eq_ok.mp h
    rw [filter_eq_ok_iff] at hf
    obtain rfl := Except.ok.inj h
    refine ⟨⟨name, ⟨subclass, hs, by simpa using known⟩, RefFilter.exists_ofTexts_eq_ok_iff.mp ⟨filters, hf⟩⟩, free, ?_⟩
    exact ⟨rfl, rfl, rfl, by rw [hs]; rfl, rfl, rfl, rfl, rfl, rfl, hf⟩

theorem exists_service (h : s.IsRight) (free : s.name ∉ taken) : ∃ d, service taken s = .ok d := by
  obtain ⟨subclass, hs, known⟩ := h.subclass
  obtain ⟨filters, hf⟩ := RefFilter.exists_ofTexts_eq_ok_iff.mpr h.patterns
  refine exists_bind_eq_ok.mpr ⟨_, checkName_eq_ok_iff.mpr ⟨h.name, free⟩, ?_⟩
  refine exists_bind_eq_ok.mpr ⟨subclass, required_eq_ok_iff.mpr hs, ?_⟩
  dsimp only
  rw [if_neg (by simpa using known)]
  exact exists_bind_eq_ok.mpr ⟨filters, filter_eq_ok_iff.mpr hf, _, rfl⟩

theorem declares_of_workflows {ws : List WorkflowDraft} {ds : List Declaration}
    (h : workflows index taken ws = .ok ds) :
    (∀ w ∈ ws, w.IsRight) ∧ List.Forall₂ WorkflowDraft.Declares ws ds := by
  induction ws generalizing index taken ds with
  | nil =>
    obtain rfl := Except.ok.inj h
    exact ⟨List.forall_mem_nil _, .nil⟩
  | cons w ws ih =>
    obtain ⟨d, hd, h⟩ := bind_eq_ok.mp h
    obtain ⟨rest, hr, h⟩ := bind_eq_ok.mp h
    obtain rfl := Except.ok.inj h
    obtain ⟨right, -, declares⟩ := declares_of_workflow hd
    obtain ⟨rights, declare⟩ := ih hr
    exact ⟨List.forall_mem_cons.mpr ⟨right, rights⟩, .cons declares declare⟩

/-- Workflows that are right are accepted if their names are new and differ. -/
theorem exists_workflows {ws : List WorkflowDraft} (h : ∀ w ∈ ws, w.IsRight)
    (names : (taken ++ ws.map WorkflowDraft.name).Nodup) : ∃ ds, workflows index taken ws = .ok ds := by
  induction ws generalizing index taken with
  | nil => exact ⟨[], rfl⟩
  | cons w ws ih =>
    rw [List.forall_mem_cons] at h
    rw [List.map_cons, List.append_cons] at names
    have free : w.name ∉ taken := fun known =>
      (List.nodup_append.mp (List.nodup_append.mp names).1).2.2 _ known _ (List.mem_singleton_self _) rfl
    obtain ⟨d, hd⟩ : ∃ d, workflow index taken w = .ok d := exists_workflow h.1 free
    obtain ⟨ds, hds⟩ : ∃ ds, workflows (index + 1) (taken ++ [w.name]) ws = .ok ds := ih h.2 names
    exact exists_bind_eq_ok.mpr ⟨d, hd, exists_bind_eq_ok.mpr ⟨ds, hds, _, rfl⟩⟩

theorem declares_of_services {ss : List ServiceDraft} {ds : List Declaration}
    (h : ss.mapM (service taken) = .ok ds) :
    (∀ s ∈ ss, s.IsRight ∧ s.name ∉ taken) ∧ List.Forall₂ ServiceDraft.Declares ss ds := by
  rw [mapM_eq_ok_iff] at h
  induction h with
  | nil => exact ⟨List.forall_mem_nil _, .nil⟩
  | cons first _ ih =>
    obtain ⟨right, free, declares⟩ := declares_of_service first
    exact ⟨List.forall_mem_cons.mpr ⟨⟨right, free⟩, ih.1⟩, .cons declares ih.2⟩

theorem declares_of_ofDraft {version : String} {draft : Draft} {m : Manifest} (h : ofDraft version draft = .ok m) :
    draft.IsRight ∧ m.version = version ∧ draft.Declares m := by
  have distinct := (wellFormed_of_ofDraft h).names
  unfold ofDraft at h
  dsimp only at h
  split at h
  · exact nomatch h
  rename_i something
  split at h
  · exact nomatch h
  rename_i single
  obtain ⟨declared, hd, h⟩ := bind_eq_ok.mp h
  obtain ⟨services, hs, h⟩ := bind_eq_ok.mp h
  obtain rfl := Except.ok.inj h
  obtain ⟨right, declares⟩ := declares_of_workflows hd
  obtain ⟨rights, declare⟩ := declares_of_services hs
  have names : (declared ++ services).map Declaration.name =
      draft.workflows.map WorkflowDraft.name ++ draft.services.map ServiceDraft.name := by
    rw [List.map_append, map_eq_of_forall₂ declares fun _ _ h => h.name, map_eq_of_forall₂ declare fun _ _ h => h.name]
  refine ⟨⟨?_, Nat.not_lt.mp single, names ▸ distinct, right, fun s hs => (rights s hs).1⟩, rfl,
    ⟨declared, services, rfl, declares, declare⟩⟩
  simpa [Classical.or_iff_not_imp_left] using something

theorem exists_ofDraft {draft : Draft} (h : draft.IsRight) (version : String) : ∃ m, ofDraft version draft = .ok m := by
  obtain ⟨declared, hd⟩ : ∃ ds, workflows 0 [] draft.workflows = .ok ds :=
    exists_workflows h.workflows (List.nodup_append.mp h.names).1
  have free : ∀ s ∈ draft.services, s.name ∉ draft.workflows.map WorkflowDraft.name := fun s hs known =>
    (List.nodup_append.mp h.names).2.2 _ known _ (List.mem_map_of_mem hs) rfl
  obtain ⟨services, hs⟩ := exists_mapM_eq_ok_iff.mpr fun s hs => exists_service (h.services s hs) (free s hs)
  unfold ofDraft
  dsimp only
  rw [if_neg (by simpa [Classical.or_iff_not_imp_left] using h.declares), if_neg (Nat.not_lt.mpr h.single)]
  exact exists_bind_eq_ok.mpr ⟨declared, hd, exists_bind_eq_ok.mpr ⟨services, hs, _, rfl⟩⟩

theorem parse_eq_ofDraft {content version : String} {document : Yaml.Value} {draft : Draft}
    (read : Yaml.Value.read? content = some document) (mapping : document.mapping?.isSome = true)
    (stated : (document.get? "version").bind versionText? = some version)
    (supported : version = ManifestError.supportedVersion) (fits : Draft.ofValue? document = some draft) :
    parse content = ofDraft version draft := by
  have mapping : ¬ document.mapping?.isNone = true := by
    rw [Option.isNone_iff_eq_none]
    exact Option.isSome_iff_ne_none.mp mapping
  unfold parse
  rw [read]
  dsimp only
  rw [if_neg mapping, stated]
  dsimp only
  rw [if_neg (not_not_intro supported), fits]

theorem drafted_of_parse {content : String} {m : Manifest} (accepted : parse content = .ok m) :
    ∃ document draft version, Yaml.Value.read? content = some document ∧ Draft.ofValue? document = some draft ∧
      ofDraft version draft = .ok m := by
  unfold parse at accepted
  split at accepted
  · exact nomatch accepted
  rename_i document read
  split at accepted
  · exact nomatch accepted
  split at accepted
  · exact nomatch accepted
  split at accepted
  · exact nomatch accepted
  split at accepted
  · exact nomatch accepted
  rename_i draft fits
  exact ⟨document, draft, _, read, fits, accepted⟩

/-- A mapping of the supported version that fits the schema is accepted if it is right, and not otherwise. Then the
manifest declares the workflows in order and after them the service, as they were drafted, and for each name that is
declared its one declaration is found. -/
theorem parse_accepts_right {content : String} {document : Yaml.Value} {draft : Draft}
    (read : Yaml.Value.read? content = some document) (mapping : document.mapping?.isSome = true)
    (version : (document.get? "version").bind versionText? = some "1.2") (fits : Draft.ofValue? document = some draft) :
    ((∃ m, parse content = .ok m) ↔ draft.IsRight) ∧
    ∀ m, parse content = .ok m → m.version = "1.2" ∧ draft.Declares m ∧ (m.entries.map Declaration.name).Nodup ∧
      ∀ name d, m.entry? name = some d ↔ d ∈ m.entries ∧ d.name = name := by
  rw [parse_eq_ofDraft read mapping version rfl fits]
  refine ⟨⟨fun ⟨m, h⟩ => (declares_of_ofDraft h).1, fun right => exists_ofDraft right _⟩, fun m h => ?_⟩
  obtain ⟨-, version, declares⟩ := declares_of_ofDraft h
  have names := (wellFormed_of_ofDraft h).names
  exact ⟨version, declares, names, fun name d => Keyed.find?_eq_some_iff names⟩

end Manifest

namespace Sample

/-- A workflow with a name and a service without one. -/
def mixedManifest : String :=
  "version: 1.2\nworkflows:\n- name: a-b\n  subclass: nfl\n  primaryDescriptorPath: /n\nservices:\n- subclass: helm"

end Sample

namespace Manifest

/-- The manifest is accepted, and both of its names are declared. -/
theorem sample_declarations_accepted :
    ∃ document draft, Yaml.Value.read? Sample.mixedManifest = some document ∧ document.mapping?.isSome = true ∧
      (document.get? "version").bind versionText? = some "1.2" ∧ Draft.ofValue? document = some draft ∧ draft.IsRight ∧
      ∃ m, parse Sample.mixedManifest = .ok m ∧ draft.Declares m ∧
        m.entries.map Declaration.name = [some "a-b", none] := by
  have accepted : ((parse Sample.mixedManifest).toOption.map fun m => m.entries.map Declaration.name) =
      some [some "a-b", none] := by decide +kernel
  have drafted : ((Yaml.Value.read? Sample.mixedManifest).bind fun document =>
      if document.mapping?.isSome ∧ (document.get? "version").bind versionText? = some "1.2" then
        Draft.ofValue? document else none).isSome = true := by decide +kernel
  obtain ⟨draft, drafted⟩ := Option.isSome_iff_exists.mp drafted
  obtain ⟨document, read, drafted⟩ := Option.bind_eq_some_iff.mp drafted
  split at drafted
  · rename_i fitting
    obtain ⟨m, parsed, names⟩ := Option.map_eq_some_iff.mp accepted
    have parsed : parse Sample.mixedManifest = .ok m := by
      cases h : parse Sample.mixedManifest with
      | error e => rw [h] at parsed; exact nomatch parsed
      | ok found => rw [h] at parsed; rw [Option.some.inj parsed]
    obtain ⟨right, declares⟩ := parse_accepts_right read fitting.1 fitting.2 drafted
    exact ⟨document, draft, read, fitting.1, fitting.2, drafted, right.mp ⟨m, parsed⟩, m, parsed,
      (declares m parsed).2.1, names⟩
  · exact nomatch drafted

end Manifest

end WorkflowCatalog
