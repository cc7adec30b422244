import Mathlib.Data.List.Nodup
import WorkflowCatalog.CommandLine
import WorkflowCatalog.Proofs.Addresses
import WorkflowCatalog.Proofs.Declarations

/-!
# Spellings of addresses

An address that has all of its parts is read back from its text. It is read from other texts too, since the letters of
the host may be cased in any way, and a slash may follow a repository without a name, but from no more than these. The
entries that a manifest declares are at such addresses, no two of them at the same one, so each can be asked for by the
text of its own.
-/
namespace WorkflowCatalog

theorem Host.lower_name (h : Host) : h.name.toList.map Char.toLower = h.name.toList := by
  cases h <;> decide +kernel

theorem Host.ofText?_eq_some_iff {cs : List Char} {h : Host} :
    ofText? (String.ofList cs) = some h ↔ cs.map Char.toLower = h.name.toList := by
  have named (g : Host) : (g.name == Text.lowercase (String.ofList cs)) = true ↔ cs.map Char.toLower = g.name.toList := by
    rw [beq_iff_eq, ← String.toList_inj, Text.lowercase, String.toList_ofList, String.toList_ofList, eq_comm]
  unfold ofText? ofName?
  constructor
  · intro found
    have hit := List.find?_some found
    exact (named h).mp hit
  · intro same
    cases found : all.find? fun g => g.name == Text.lowercase (String.ofList cs) with
    | none =>
      have listed : h ∈ all := by cases h <;> decide
      exact absurd ((named h).mpr same) (List.find?_eq_none.mp found h listed)
    | some g =>
      have hit := List.find?_some found
      rw [EntryPath.host_name_inj (String.toList_inj.mp (((named g).mp hit).symm.trans same))]

namespace EntryPath

/-- Some text without a slash. -/
def IsPart (s : String) : Prop := s.toList ≠ [] ∧ '/' ∉ s.toList

/-- The address has an organization and a repository, and its name is not empty if it has one. -/
structure IsComplete (p : EntryPath) : Prop where
  organization : IsPart p.organization
  repository : IsPart p.repository
  name : ∀ n, p.name = some n → IsPart n

theorem IsComplete.isPlain {p : EntryPath} (h : p.IsComplete) : p.IsPlain := ⟨h.organization.2, h.repository.2⟩

/-- The texts are alike up to the case of the letters before the first slash. -/
def AlikeUpToHost (s t : String) : Prop :=
  ∃ a b rest : List Char, '/' ∉ a ∧ '/' ∉ b ∧ s.toList = a ++ '/' :: rest ∧ t.toList = b ++ '/' :: rest ∧
    a.map Char.toLower = b.map Char.toLower

/-- The text is that of the address up to the case of the host, and up to one slash after the repository where there is
no name. -/
def Spells (p : EntryPath) (s : String) : Prop :=
  AlikeUpToHost s p.toText ∨ p.name = none ∧ AlikeUpToHost s (p.toText ++ "/")

/-- A text that spells the address, cut into its parts. -/
structure Cut (p : EntryPath) (s : String) (host ending : List Char) : Prop where
  noSlash : '/' ∉ host
  cased : host.map Char.toLower = p.host.name.toList
  text : s.toList = host ++ '/' :: (p.organization.toList ++ '/' :: (p.repository.toList ++ ending))
  ends : ending = p.ending ∨ p.name = none ∧ ending = ['/']

theorem nonempty?_eq_some_iff {cs : List Char} {s : String} : nonempty? cs = some s ↔ s.toList ≠ [] ∧ s.toList = cs := by
  unfold nonempty?
  constructor
  · intro h
    split at h
    · exact nomatch h
    · rename_i some_text
      obtain rfl := Option.some.inj h
      rw [String.toList_ofList]
      exact ⟨by simpa using some_text, rfl⟩
  · rintro ⟨some_text, rfl⟩
    rw [if_neg (by simpa using some_text), String.ofList_toList]

theorem nonempty?_of_isPart {s : String} (h : IsPart s) : nonempty? s.toList = some s :=
  nonempty?_eq_some_iff.mpr ⟨h.1, rfl⟩

variable {p q : EntryPath} {s : String}

theorem alikeUpToHost_iff {rest : List Char} {h : Host} {t : String}
    (written : t.toList = h.name.toList ++ '/' :: rest) :
    AlikeUpToHost s t ↔ ∃ host : List Char, '/' ∉ host ∧ host.map Char.toLower = h.name.toList ∧
      s.toList = host ++ '/' :: rest := by
  constructor
  · rintro ⟨a, b, rest', noSlash, noSlash', hs, ht, cased⟩
    obtain ⟨rfl, rfl⟩ := Text.append_cons_inj noSlash' (slash_not_mem_host h) (ht.symm.trans written)
    exact ⟨a, noSlash, cased.trans h.lower_name, hs⟩
  · rintro ⟨host, noSlash, cased, hs⟩
    exact ⟨host, h.name.toList, rest, noSlash, slash_not_mem_host h, hs, written, cased.trans h.lower_name.symm⟩

theorem spells_iff : p.Spells s ↔ ∃ host ending, p.Cut s host ending := by
  have slashed : (p.toText ++ "/").toList =
      p.host.name.toList ++ '/' :: (p.organization.toList ++ '/' :: (p.repository.toList ++ (p.ending ++ ['/']))) := by
    rw [String.toList_append, toList_toText]
    simp
  unfold Spells
  rw [alikeUpToHost_iff (toList_toText p), alikeUpToHost_iff slashed]
  constructor
  · rintro (⟨host, noSlash, cased, text⟩ | ⟨unnamed, host, noSlash, cased, text⟩)
    · exact ⟨host, p.ending, noSlash, cased, text, .inl rfl⟩
    · have nothing : p.ending = [] := by simp [ending, unnamed]
      exact ⟨host, p.ending ++ ['/'], noSlash, cased, text, .inr ⟨unnamed, by rw [nothing]; rfl⟩⟩
  · rintro ⟨host, _, noSlash, cased, text, rfl | ⟨unnamed, rfl⟩⟩
    · exact .inl ⟨host, noSlash, cased, text⟩
    · have nothing : p.ending = [] := by simp [ending, unnamed]
      exact .inr ⟨unnamed, host, noSlash, cased, by rw [nothing]; exact text⟩

/-- The parts of a text from which an address is read are those of the address. -/
theorem cut_of_ofText? (h : ofText? s = some p) : p.IsComplete ∧ ∃ host ending, p.Cut s host ending := by
  have joined := Text.intercalate_splitOn '/' s.toList
  have plain : ∀ piece ∈ Text.splitOn '/' s.toList, '/' ∉ piece := fun piece hp => Text.not_mem_of_mem_splitOn hp
  unfold ofText? at h
  split at h
  · rename_i host organization repository rest pieces
    rw [pieces] at joined plain
    simp only [List.forall_mem_cons] at plain
    obtain ⟨noHost, noOrganization, noRepository, noRest⟩ := plain
    simp only [Option.bind_eq_bind, Option.bind_eq_some_iff, nonempty?_eq_some_iff, Host.ofText?_eq_some_iff] at h
    obtain ⟨g, cased, o, ⟨someOrganization, rfl⟩, r, ⟨someRepository, rfl⟩, h⟩ := h
    have parts : IsPart o ∧ IsPart r := ⟨⟨someOrganization, noOrganization⟩, someRepository, noRepository⟩
    split at h
    · obtain rfl := Option.some.inj h
      refine ⟨⟨parts.1, parts.2, nofun⟩, host, [], noHost, cased, ?_, .inl rfl⟩
      simpa [List.intercalate] using joined.symm
    · rename_i name
      obtain rfl := Option.some.inj h
      have noName := noRest name (List.mem_singleton_self name)
      cases named : nonempty? name with
      | none =>
        refine ⟨⟨parts.1, parts.2, nofun⟩, host, ['/'], noHost, cased, ?_, .inr ⟨rfl, rfl⟩⟩
        have empty : name = [] := by simpa [nonempty?] using named
        simpa [List.intercalate, empty] using joined.symm
      | some n =>
        obtain ⟨someName, rfl⟩ := nonempty?_eq_some_iff.mp named
        refine ⟨⟨parts.1, parts.2, ?_⟩, host, '/' :: n.toList, noHost, cased, ?_, .inl rfl⟩
        · rintro _ ⟨rfl⟩
          exact ⟨someName, noName⟩
        · simpa [List.intercalate] using joined.symm
    · exact nomatch h
  · exact nomatch h

/-- What follows the organization is the repository, and a name after it that may be empty. -/
theorem Cut.pieces {host ending : List Char} (complete : p.IsComplete) (cut : p.Cut s host ending) :
    ∃ rest, Text.splitOn '/' s.toList = host :: p.organization.toList :: p.repository.toList :: rest ∧
      (rest = [] ∧ p.name = none ∨ ∃ name, rest = [name] ∧ nonempty? name = p.name) := by
  rw [cut.text, Text.splitOn_append_cons cut.noSlash, Text.splitOn_append_cons complete.organization.2]
  rcases cut.ends with rfl | ⟨unnamed, rfl⟩
  · cases named : p.name with
    | none =>
      have nothing : p.ending = [] := by simp [EntryPath.ending, named]
      rw [nothing, List.append_nil, Text.splitOn_of_not_mem complete.repository.2]
      exact ⟨[], rfl, .inl ⟨rfl, rfl⟩⟩
    | some n =>
      have part := complete.name n named
      have something : p.ending = '/' :: n.toList := by simp [EntryPath.ending, named]
      rw [something, Text.splitOn_append_cons complete.repository.2, Text.splitOn_of_not_mem part.2]
      exact ⟨[n.toList], rfl, .inr ⟨_, rfl, nonempty?_of_isPart part⟩⟩
  · rw [Text.splitOn_append_cons complete.repository.2, unnamed]
    exact ⟨[[]], rfl, .inr ⟨[], rfl, rfl⟩⟩

theorem Cut.ofText? {host ending : List Char} (complete : p.IsComplete) (cut : p.Cut s host ending) :
    ofText? s = some p := by
  obtain ⟨rest, pieces, after⟩ := cut.pieces complete
  unfold EntryPath.ofText?
  rw [pieces]
  simp only [Host.ofText?_eq_some_iff.mpr cut.cased, nonempty?_of_isPart complete.organization,
    nonempty?_of_isPart complete.repository, Option.bind_eq_bind, Option.bind_some]
  rcases after with ⟨rfl, unnamed⟩ | ⟨name, rfl, named⟩
  · rw [← unnamed]
    rfl
  · dsimp only
    rw [named]
    rfl

/-- The texts from which an address is read are those that spell it. -/
theorem ofText?_eq_some_iff : ofText? s = some p ↔ p.IsComplete ∧ p.Spells s := by
  rw [spells_iff]
  constructor
  · exact cut_of_ofText?
  · rintro ⟨complete, host, ending, cut⟩
    exact cut.ofText? complete

example : ofText? "GitHub.com/org/repo/" = some ⟨.github, "org", "repo", none⟩ := by decide +kernel

theorem ofText?_toText (complete : p.IsComplete) : ofText? p.toText = some p :=
  Cut.ofText? complete ⟨slash_not_mem_host _, p.host.lower_name, toList_toText p, .inl rfl⟩

/-- An address of a repository is that of GitHub, and complete if its name is. -/
theorem exists_of_ofRepository? {repository : String} {r : EntryPath} {name : Option String}
    (h : ofRepository? repository name = some r) :
    IsPart r.organization ∧ IsPart r.repository ∧
      ∀ other, ofRepository? repository other = some { r with name := other } := by
  obtain ⟨plain, -, -⟩ := ofRepository?_eq_some h
  unfold ofRepository? at h ⊢
  split at h
  · rename_i organization repo pieces
    simp only [Option.bind_eq_bind, Option.bind_eq_some_iff, nonempty?_eq_some_iff] at h
    obtain ⟨o, ⟨someOrganization, rfl⟩, r, ⟨someRepository, rfl⟩, h⟩ := h
    obtain rfl := Option.some.inj h
    refine ⟨⟨someOrganization, plain.organization⟩, ⟨someRepository, plain.repository⟩, fun other => ?_⟩
    rw [nonempty?_of_isPart ⟨someOrganization, plain.organization⟩, nonempty?_of_isPart ⟨someRepository, plain.repository⟩]
    rfl
  · exact nomatch h

end EntryPath

namespace Manifest

/-- A name of runs is a part of an address, since no run is empty and none holds a slash. -/
theorem IsJoined.part {cs : List Char} (h : IsJoined cs) : cs ≠ [] ∧ '/' ∉ cs := by
  have noSlash {r : List Char} (run : IsRun r) : '/' ∉ r := fun mem => absurd (run.2 '/' mem) (by decide)
  induction h with
  | run run => exact ⟨run.1, noSlash run⟩
  | @join r rest c run mark _ ih =>
    have other : '/' ≠ c := by
      rintro rfl
      exact absurd mark (by decide)
    refine ⟨by simp, ?_⟩
    rw [List.mem_append, List.mem_cons, not_or, not_or]
    exact ⟨noSlash run, other, ih.2⟩

/-- What is said of a named workflow or service holds of each declaration. -/
theorem isPart_of_parse {content name : String} {m : Manifest} (accepted : parse content = .ok m) {d : Declaration}
    (declared : d ∈ m.entries) (named : d.name = some name) : EntryPath.IsPart name := by
  obtain ⟨-, draft, version, -, -, made⟩ := drafted_of_parse accepted
  obtain ⟨right, -, ws, ss, entries, workflows, services⟩ := declares_of_ofDraft made
  have workflowNames := map_eq_of_forall₂ workflows fun _ _ h => h.name
  have serviceNames := map_eq_of_forall₂ services fun _ _ h => h.name
  rw [entries, List.mem_append] at declared
  rcases declared with ofWorkflow | ofService
  · have drafted : some name ∈ draft.workflows.map WorkflowDraft.name :=
      workflowNames ▸ named ▸ List.mem_map_of_mem ofWorkflow
    obtain ⟨w, hw, same⟩ := List.mem_map.mp drafted
    exact ((right.workflows w hw).name name same).part
  · have drafted : some name ∈ draft.services.map ServiceDraft.name :=
      serviceNames ▸ named ▸ List.mem_map_of_mem ofService
    obtain ⟨s, hs, same⟩ := List.mem_map.mp drafted
    exact ((right.services s hs).name name same).part

end Manifest

namespace EntryPath

/-- The addresses of what a manifest declares, in order, in a repository at that address. -/
def ofDeclarations (r : EntryPath) (m : Manifest) : List EntryPath :=
  m.entries.map fun d => { r with name := d.name }

theorem nodup_ofDeclarations {m : Manifest} (names : (m.entries.map Declaration.name).Nodup) (r : EntryPath) :
    (r.ofDeclarations m).Nodup := by
  have named : r.ofDeclarations m = (m.entries.map Declaration.name).map fun name => { r with name := name } :=
    List.map_map.symm
  rw [named]
  exact names.map fun _ _ same => (mk.inj same).2.2.2

/-- Distinct complete addresses have distinct identifiers. -/
theorem nodup_entryId {paths : List EntryPath} (complete : ∀ p ∈ paths, p.IsComplete) (distinct : paths.Nodup) :
    (paths.map entryId).Nodup :=
  distinct.map_on fun _ hp _ hq => entryId_inj (complete _ hp).isPlain (complete _ hq).isPlain

/-- An entry at an address is found there. -/
theorem exists_foundEntry {c : DiskCatalog} {p : EntryPath} (there : ∃ e ∈ c.store.entries, e.path = p) (text : String) :
    ∃ e, CommandLine.Session.foundEntry c p text = .ok e ∧ e.path = p := by
  obtain ⟨f, hf, at_p⟩ := there
  have some_found : (c.store.entry? p).isSome = true := List.find?_isSome.mpr ⟨f, hf, beq_iff_eq.mpr at_p⟩
  obtain ⟨e, found⟩ := Option.isSome_iff_exists.mp some_found
  have hit := List.find?_some found
  refine ⟨e, ?_, beq_iff_eq.mp hit⟩
  unfold CommandLine.Session.foundEntry
  rw [found]

/-- The entries that an accepted manifest declares are at distinct addresses and have distinct identifiers, and the text
of each address is read as that address, so that commands find the entry by it. In general complete addresses are read
back from their texts and have distinct identifiers, and a text that is read as an address is the text of the address up
to the case of the host and one slash after the repository. -/
theorem declared_addresses {content repository : String} {m : Manifest} {r : EntryPath}
    (accepted : Manifest.parse content = .ok m) (addressed : ofRepository? repository none = some r) :
    (∀ d ∈ m.entries, ofRepository? repository d.name = some { r with name := d.name }) ∧
    (r.ofDeclarations m).Nodup ∧ ((r.ofDeclarations m).map entryId).Nodup ∧
    (∀ p ∈ r.ofDeclarations m, ofText? p.toText = some p ∧ CommandLine.Session.entryPath p.toText = .ok p ∧
      ∀ c : DiskCatalog, (∃ e ∈ c.store.entries, e.path = p) →
        ∃ e, CommandLine.Session.foundEntry c p p.toText = .ok e ∧ e.path = p) ∧
    (∀ p : EntryPath, p.IsComplete → ofText? p.toText = some p) ∧
    (∀ p q : EntryPath, p.IsComplete → q.IsComplete → p.entryId = q.entryId → p = q) ∧
    ∀ s p, ofText? s = some p → p.Spells s := by
  obtain ⟨organization, repo, named⟩ := exists_of_ofRepository? addressed
  have complete : ∀ p ∈ r.ofDeclarations m, p.IsComplete := by
    intro p hp
    obtain ⟨d, declared, rfl⟩ := List.mem_map.mp hp
    exact ⟨organization, repo, fun _ same => Manifest.isPart_of_parse accepted declared same⟩
  have distinct := nodup_ofDeclarations (Manifest.wellFormed_of_parse accepted).names r
  refine ⟨fun d _ => named d.name, distinct, nodup_entryId complete distinct, fun p hp => ?_,
    fun p => ofText?_toText, fun p q hp hq => entryId_inj hp.isPlain hq.isPlain, fun s p read => ?_⟩
  · have read := ofText?_toText (complete p hp)
    refine ⟨read, ?_, fun c there => exists_foundEntry there _⟩
    unfold CommandLine.Session.entryPath
    rw [read]
  · exact (ofText?_eq_some_iff.mp read).2

/-- A workflow and a service of one repository have the texts that are expected. -/
theorem sample_declared_addresses :
    ∃ m r, Manifest.parse Sample.mixedManifest = .ok m ∧ ofRepository? "org/repo" none = some r ∧
      (r.ofDeclarations m).map toText = ["github.com/org/repo/a-b", "github.com/org/repo"] ∧
      (r.ofDeclarations m).Nodup := by
  have shown : (Manifest.parse Sample.mixedManifest).toOption.bind (fun m => (ofRepository? "org/repo" none).map
      fun r => (r.ofDeclarations m).map toText) = some ["github.com/org/repo/a-b", "github.com/org/repo"] := by
    decide +kernel
  obtain ⟨m, parsed, shown⟩ := Option.bind_eq_some_iff.mp shown
  obtain ⟨r, addressed, texts⟩ := Option.map_eq_some_iff.mp shown
  have accepted := toOption_eq_some_iff.mp parsed
  exact ⟨m, r, accepted, addressed, texts, (declared_addresses accepted addressed).2.1⟩

end EntryPath

end WorkflowCatalog
