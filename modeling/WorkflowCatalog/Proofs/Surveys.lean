import WorkflowCatalog.Proofs.Plans

/-!
# What a survey finds

A listed version is accepted by an entry if its manifest declares the entry with filters that let the version in.
Its manifest may also not be there, or not be readable. A survey sorts the listed versions by these, and since
a manifest declares no name twice, each accepted version is a source of the entry once.
-/
namespace WorkflowCatalog

namespace Remote

/-- Whether there is a manifest at the listed version that cannot be read. -/
def isUnreadable (r : Remote) (repository : String) (v : RemoteVersion) : Bool :=
  match r.text repository v.name Manifest.path with
  | .ok (some text) =>
    match Manifest.parse text with
    | .ok _ => false
    | .error _ => true
  | _ => false

/-- Whether the manifest at the listed version declares an entry of that name which lets the version in. -/
def accepts (r : Remote) (repository : String) (name : Option String) (v : RemoteVersion) : Bool :=
  match r.text repository v.name Manifest.path with
  | .ok (some text) =>
    match Manifest.parse text with
    | .ok m => m.entries.any fun d => d.name == name && d.filters.accepts v.referenceType v.name
    | .error _ => false
  | _ => false

end Remote

namespace Reconcile

variable {r : Remote} {repository : String} {vs : List RemoteVersion} {s : Survey}

theorem surveyOf_cons_eq_ok {v : RemoteVersion} (h : surveyOf r repository (v :: vs) = .ok s) :
    ∃ found rest, r.text repository v.name Manifest.path = .ok found ∧ surveyOf r repository vs = .ok rest ∧
      s = ⟨(surveyed v found).sources ++ rest.sources, (surveyed v found).unreadable ++ rest.unreadable⟩ := by
  obtain ⟨found, hf, h⟩ := bind_eq_ok.mp h
  obtain ⟨rest, hr, h⟩ := bind_eq_ok.mp h
  exact ⟨found, rest, hf, hr, (Except.ok.inj h).symm⟩

/-- No manifest failed to be fetched. -/
theorem fetched_of_surveyOf (h : surveyOf r repository vs = .ok s) :
    ∀ v ∈ vs, ∃ found, r.text repository v.name Manifest.path = .ok found := by
  induction vs generalizing s with
  | nil => simp
  | cons v vs ih =>
    obtain ⟨found, rest, hf, hr, -⟩ := surveyOf_cons_eq_ok h
    exact List.forall_mem_cons.mpr ⟨⟨found, hf⟩, ih hr⟩

theorem unreadable_surveyed {v : RemoteVersion} {found : Option String}
    (h : r.text repository v.name Manifest.path = .ok found) :
    (surveyed v found).unreadable = if r.isUnreadable repository v then [v.name] else [] := by
  unfold Remote.isUnreadable
  rw [h]
  cases found with
  | none => rfl
  | some text => cases hm : Manifest.parse text <;> simp [surveyed, hm]

theorem unreadable_of_surveyOf (h : surveyOf r repository vs = .ok s) :
    s.unreadable = (vs.filter (r.isUnreadable repository)).map RemoteVersion.name := by
  induction vs generalizing s with
  | nil =>
    obtain rfl := Except.ok.inj h
    rfl
  | cons v vs ih =>
    obtain ⟨found, rest, hf, hr, rfl⟩ := surveyOf_cons_eq_ok h
    simp only [unreadable_surveyed hf, ih hr, List.filter_cons]
    split <;> rfl

/-- A source is what the manifest at a listed version says of an entry. -/
structure IsSource (r : Remote) (repository : String) (vs : List RemoteVersion) (v : VersionSource) : Prop where
  listed : v.remote ∈ vs
  text : r.text repository v.remote.name Manifest.path = .ok (some v.manifestText)
  declared : ∃ m, Manifest.parse v.manifestText = .ok m ∧ v.declaration ∈ m.entries
  accepted : v.declaration.filters.accepts v.remote.referenceType v.remote.name = true

theorem isSource_of_surveyOf (h : surveyOf r repository vs = .ok s) : ∀ v ∈ s.sources, IsSource r repository vs v := by
  induction vs generalizing s with
  | nil =>
    obtain rfl := Except.ok.inj h
    simp
  | cons v vs ih =>
    obtain ⟨found, rest, hf, hr, rfl⟩ := surveyOf_cons_eq_ok h
    intro w hw
    rcases List.mem_append.mp hw with hw | hw
    · unfold surveyed at hw
      split at hw
      · simp at hw
      · rename_i text
        split at hw
        · simp at hw
        · rename_i m hm
          obtain ⟨d, hd, rfl⟩ := List.mem_map.mp hw
          obtain ⟨hd, accepted⟩ := List.mem_filter.mp hd
          exact ⟨List.mem_cons_self, hf, ⟨m, hm, hd⟩, accepted⟩
    · have source := ih hr w hw
      exact ⟨List.mem_cons_of_mem v source.listed, source.text, source.declared, source.accepted⟩

theorem remotes_surveyed {v : RemoteVersion} {found : Option String}
    (h : r.text repository v.name Manifest.path = .ok found) (name : Option String) :
    ((surveyed v found).sourcesOf name).map VersionSource.remote = if r.accepts repository name v then [v] else [] := by
  unfold Remote.accepts
  rw [h]
  cases found with
  | none => rfl
  | some text =>
    cases hm : Manifest.parse text with
    | error e => simp [surveyed, hm, Survey.sourcesOf]
    | ok m =>
      have names := (Manifest.wellFormed_of_parse hm).names
      simp only [surveyed, hm, Survey.sourcesOf, List.filter_map, List.map_map, List.filter_filter, Function.comp_def]
      exact Keyed.map_const_filter names name (fun d => d.filters.accepts v.referenceType v.name) v

/-- The sources of an entry are the listed versions that it accepts. -/
theorem remotes_of_surveyOf (h : surveyOf r repository vs = .ok s) (name : Option String) :
    (s.sourcesOf name).map VersionSource.remote = vs.filter (r.accepts repository name) := by
  induction vs generalizing s with
  | nil =>
    obtain rfl := Except.ok.inj h
    rfl
  | cons v vs ih =>
    obtain ⟨found, rest, hf, hr, rfl⟩ := surveyOf_cons_eq_ok h
    have first := remotes_surveyed hf name
    have others := ih hr
    simp only [Survey.sourcesOf] at first others ⊢
    rw [List.filter_append, List.map_append, first, others, List.filter_cons]
    split <;> rfl

end Reconcile

end WorkflowCatalog
