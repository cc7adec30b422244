import WorkflowCatalog.EntryPath

/-!
# Addresses and identifiers

A slash divides the parts of an address, so neither the organization nor the repository of an address that
was read from a text holds one. For such addresses the text, and with it the identifier of an entry, tells
the address: entries at different addresses never share an identifier.
-/
namespace WorkflowCatalog

namespace Text

/-- Texts that are cut at the same separator, which the parts before it do not hold, have equal parts. -/
theorem append_cons_inj {sep : Char} {a b x y : List Char} (ha : sep ∉ a) (hb : sep ∉ b)
    (h : a ++ sep :: x = b ++ sep :: y) : a = b ∧ x = y := by
  induction a generalizing b with
  | nil =>
    cases b with
    | nil => exact ⟨rfl, (List.cons.inj h).2⟩
    | cons d b => exact absurd (List.cons.inj h).1 fun e => hb (e ▸ List.mem_cons_self)
  | cons c a ih =>
    cases b with
    | nil => exact absurd (List.cons.inj h).1 fun e => ha (e ▸ List.mem_cons_self)
    | cons d b =>
      simp only [List.mem_cons, not_or] at ha hb
      simp only [List.cons_append, List.cons.injEq] at h
      obtain ⟨rfl, rfl⟩ := ih ha.2 hb.2 h.2
      exact ⟨by rw [h.1], rfl⟩

end Text

namespace EntryPath

/-- Neither part of the repository's address holds a slash. -/
structure IsPlain (p : EntryPath) : Prop where
  organization : '/' ∉ p.organization.toList
  repository : '/' ∉ p.repository.toList

/-- What follows the repository in the text of an address. -/
def ending (p : EntryPath) : List Char := (p.name.map fun n => '/' :: n.toList).getD []

theorem toList_toText (p : EntryPath) :
    p.toText.toList =
      p.host.name.toList ++ '/' :: (p.organization.toList ++ '/' :: (p.repository.toList ++ p.ending)) := by
  unfold toText ending
  cases p.name <;> simp

theorem slash_not_mem_host (h : Host) : '/' ∉ h.name.toList := by
  cases h <;> decide +kernel

theorem host_name_inj {g h : Host} (e : g.name = h.name) : g = h := by
  revert e
  cases g <;> cases h <;> decide +kernel

/-- A part without a slash is told from what may follow it. -/
theorem ending_inj {a b : List Char} {m n : Option String} (ha : '/' ∉ a) (hb : '/' ∉ b)
    (h : a ++ (m.map fun n => '/' :: n.toList).getD [] = b ++ (n.map fun n => '/' :: n.toList).getD []) :
    a = b ∧ m = n := by
  cases m with
  | none =>
    cases n with
    | none => simpa using h
    | some n =>
      simp only [Option.map_none, Option.getD_none, List.append_nil, Option.map_some, Option.getD_some] at h
      simp [h] at ha
  | some m =>
    cases n with
    | none =>
      simp only [Option.map_none, Option.getD_none, List.append_nil, Option.map_some, Option.getD_some] at h
      simp [← h] at hb
    | some n =>
      obtain ⟨hab, hmn⟩ := Text.append_cons_inj ha hb h
      exact ⟨hab, by rw [String.toList_inj.mp hmn]⟩

theorem toText_inj {p q : EntryPath} (hp : p.IsPlain) (hq : q.IsPlain) (h : p.toText = q.toText) : p = q := by
  have h := congrArg String.toList h
  rw [toList_toText, toList_toText] at h
  obtain ⟨hhost, h⟩ := Text.append_cons_inj (slash_not_mem_host _) (slash_not_mem_host _) h
  obtain ⟨horg, h⟩ := Text.append_cons_inj hp.organization hq.organization h
  obtain ⟨hrepo, hname⟩ := ending_inj hp.repository hq.repository h
  cases p
  cases q
  simp only [mk.injEq]
  exact ⟨host_name_inj (String.toList_inj.mp hhost), String.toList_inj.mp horg, String.toList_inj.mp hrepo, hname⟩

theorem entryId_inj {p q : EntryPath} (hp : p.IsPlain) (hq : q.IsPlain) (h : p.entryId = q.entryId) : p = q :=
  toText_inj hp hq (by simpa [entryId] using h)

/-- What is known of an address that was made for a repository given as text. -/
theorem ofRepository?_eq_some {repository : String} {name : Option String} {p : EntryPath}
    (h : ofRepository? repository name = some p) :
    p.IsPlain ∧ p.repositoryPath = repository ∧ p.name = name := by
  unfold ofRepository? at h
  split at h
  · rename_i organization repo hs
    have joined := Text.intercalate_splitOn '/' repository.toList
    rw [hs] at joined
    have plain : ∀ piece ∈ [organization, repo], '/' ∉ piece := by
      intro piece hp
      exact Text.not_mem_of_mem_splitOn (hs ▸ hp)
    have ho := plain organization (by simp)
    have hr := plain repo (by simp)
    unfold nonempty? at h
    split at h
    · simp at h
    · split at h
      · simp at h
      · simp only [Option.pure_def, Option.bind_eq_bind, Option.bind_some, Option.some.injEq] at h
        subst h
        refine ⟨⟨by simpa using ho, by simpa using hr⟩, ?_, rfl⟩
        apply String.toList_inj.mp
        simpa [repositoryPath, List.intercalate] using joined
  · simp at h

theorem IsPlain.withName {p : EntryPath} (h : p.IsPlain) (name : Option String) : { p with name := name }.IsPlain :=
  ⟨h.organization, h.repository⟩

end EntryPath

end WorkflowCatalog
