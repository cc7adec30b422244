import WorkflowCatalog.Manifest

/-!
# Manifests that are accepted

A manifest that was read declares no name twice, and gives all paths in their canonical form. Services, and
no workflows, are of the service language, and the primary descriptor of a service is the manifest itself.
-/
namespace WorkflowCatalog

theorem bind_eq_ok {ε α β : Type} {x : Except ε α} {f : α → Except ε β} {b : β} :
    x >>= f = .ok b ↔ ∃ a, x = .ok a ∧ f a = .ok b := by
  cases x with
  | error e => simp [bind, Except.bind]
  | ok a => simp [bind, Except.bind]

/-- What is known of a declaration that was accepted. -/
structure Declaration.WellFormed (d : Declaration) : Prop where
  primary : Path.normalize d.primaryDescriptorPath = d.primaryDescriptorPath
  tests : ∀ path ∈ d.testParameterFiles, Path.normalize path = path
  service : d.language = .service → d.primaryDescriptorPath = Manifest.path
  kind : d.kind = .service ↔ d.language = .service

/-- The language tells what kind of entry is declared. -/
theorem Declaration.WellFormed.kind_eq {d e : Declaration} (hd : d.WellFormed) (he : e.WellFormed)
    (language : d.language = e.language) : d.kind = e.kind := by
  have same : d.kind = .service ↔ e.kind = .service := by rw [hd.kind, he.kind, language]
  cases hk : d.kind with
  | service => exact (same.mp hk).symm
  | workflow =>
    cases hl : e.kind with
    | workflow => rfl
    | service => exact nomatch hk.symm.trans (same.mpr hl)

structure Manifest.WellFormed (m : Manifest) : Prop where
  names : (m.entries.map Declaration.name).Nodup
  entries : ∀ d ∈ m.entries, d.WellFormed

theorem Language.ne_service_of_ofSubclass? {s : String} {l : Language} (h : ofSubclass? s = some l) : l ≠ .service := by
  unfold ofSubclass? at h
  split at h <;> simp at h <;> subst h <;> decide

namespace Manifest

theorem normalize_path : Path.normalize path = path := by
  decide

theorem not_mem_of_checkName {kind : EntryKind} {name : Option String} {taken : List (Option String)}
    (h : checkName kind name taken = .ok ()) : name ∉ taken := by
  intro taken_name
  unfold checkName at h
  dsimp only at h
  rw [if_pos (by simpa using taken_name)] at h
  split at h
  · split at h <;> exact nomatch h
  · exact nomatch h

theorem workflow_eq_ok {index : Nat} {taken : List (Option String)} {w : WorkflowDraft} {d : Declaration}
    (h : workflow index taken w = .ok d) : d.name = w.name ∧ w.name ∉ taken ∧ d.WellFormed := by
  obtain ⟨_, free, h⟩ := bind_eq_ok.mp h
  obtain ⟨subclass, -, h⟩ := bind_eq_ok.mp h
  dsimp only at h
  split at h
  · rename_i language known
    obtain ⟨_, hl, h⟩ := bind_eq_ok.mp h
    obtain rfl := Except.ok.inj hl
    obtain ⟨primary, -, h⟩ := bind_eq_ok.mp h
    split at h
    · exact nomatch h
    · obtain ⟨filters, -, h⟩ := bind_eq_ok.mp h
      obtain rfl := Except.ok.inj h
      have other := Language.ne_service_of_ofSubclass? known
      refine ⟨rfl, not_mem_of_checkName free, Path.normalize_normalize _, fun path hp => ?_, fun e => absurd e other,
        iff_of_false nofun other⟩
      obtain ⟨written, -, rfl⟩ := List.mem_map.mp hp
      exact Path.normalize_normalize written
  · exact nomatch h

theorem service_eq_ok {taken : List (Option String)} {s : ServiceDraft} {d : Declaration}
    (h : service taken s = .ok d) : d.name = s.name ∧ s.name ∉ taken ∧ d.WellFormed := by
  obtain ⟨_, free, h⟩ := bind_eq_ok.mp h
  obtain ⟨subclass, -, h⟩ := bind_eq_ok.mp h
  dsimp only at h
  split at h
  · exact nomatch h
  · obtain ⟨filters, -, h⟩ := bind_eq_ok.mp h
    obtain rfl := Except.ok.inj h
    exact ⟨rfl, not_mem_of_checkName free, normalize_path, fun _ hp => absurd hp List.not_mem_nil, fun _ => rfl,
      iff_of_true rfl rfl⟩

theorem workflows_eq_ok {index : Nat} {taken : List (Option String)} {ws : List WorkflowDraft} {ds : List Declaration}
    (h : workflows index taken ws = .ok ds) :
    ds.map Declaration.name = ws.map WorkflowDraft.name ∧ (ws.map WorkflowDraft.name).Nodup ∧
      (∀ name ∈ taken, name ∉ ws.map WorkflowDraft.name) ∧ ∀ d ∈ ds, d.WellFormed := by
  induction ws generalizing index taken ds with
  | nil =>
    obtain rfl := Except.ok.inj h
    simp
  | cons w ws ih =>
    obtain ⟨d, hd, h⟩ := bind_eq_ok.mp h
    obtain ⟨rest, hr, h⟩ := bind_eq_ok.mp h
    obtain rfl := Except.ok.inj h
    obtain ⟨name, free, valid⟩ := workflow_eq_ok hd
    obtain ⟨names, distinct, apart, valids⟩ := ih hr
    refine ⟨by rw [List.map_cons, List.map_cons, name, names], ?_, ?_, List.forall_mem_cons.mpr ⟨valid, valids⟩⟩
    · exact List.nodup_cons.mpr ⟨apart w.name (by simp), distinct⟩
    · intro taken_name ht
      rw [List.map_cons, List.mem_cons, not_or]
      exact ⟨fun e => free (e ▸ ht), apart taken_name (by simp [ht])⟩

theorem wellFormed_of_ofDraft {version : String} {draft : Draft} {m : Manifest} (h : ofDraft version draft = .ok m) :
    m.WellFormed := by
  unfold ofDraft at h
  dsimp only at h
  split at h
  · exact nomatch h
  split at h
  · exact nomatch h
  rename_i single
  obtain ⟨declared, hd, h⟩ := bind_eq_ok.mp h
  obtain ⟨services, hs, h⟩ := bind_eq_ok.mp h
  obtain rfl := Except.ok.inj h
  obtain ⟨names, distinct, -, valids⟩ := workflows_eq_ok hd
  match hds : draft.services with
  | [] =>
    rw [hds] at hs
    obtain rfl := Except.ok.inj hs
    exact ⟨by simpa [names] using distinct, by simpa using valids⟩
  | [s] =>
    rw [hds] at hs
    obtain ⟨d, hd, hs⟩ := bind_eq_ok.mp hs
    obtain rfl := Except.ok.inj hs
    obtain ⟨name, free, valid⟩ := service_eq_ok hd
    refine ⟨?_, fun e he => ?_⟩
    · simp only [List.map_append, names]
      exact List.nodup_append.mpr ⟨distinct, by simp, fun a ha b hb e => free (by simp_all)⟩
    · rcases List.mem_append.mp he with he | he
      · exact valids e he
      · exact List.mem_singleton.mp he ▸ valid
  | _ :: _ :: _ => simp [hds] at single

/-- Whatever is read as a manifest is well-formed. -/
theorem wellFormed_of_parse {text : String} {m : Manifest} (h : parse text = .ok m) : m.WellFormed := by
  unfold parse at h
  repeat' split at h
  all_goals first | contradiction | exact wellFormed_of_ofDraft h

end Manifest

end WorkflowCatalog
