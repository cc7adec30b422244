import WorkflowCatalog.Descriptor.Service
import WorkflowCatalog.Proofs.Declarations

/-!
# Files of services

A manifest is read in two ways. The schema looks for its fields by the texts of the keys, whether these are tagged or
not, and takes no field twice. The resolver of services walks the same document, but only under keys without a tag. So
both know the same files of a service, in the same order, unless one of the two keys on the way to them is tagged: then
the manifest is accepted as if it were not, and the resolver finds no files at all.
-/
namespace WorkflowCatalog

/-- Each member of a list is mapped on its own. -/
theorem mapM_eq_some_iff {α β : Type} {f : α → Option β} {xs : List α} {ys : List β} :
    xs.mapM f = some ys ↔ List.Forall₂ (fun x y => f x = some y) xs ys := by
  induction xs generalizing ys with
  | nil =>
    rw [List.mapM_nil, List.forall₂_nil_left_iff]
    exact ⟨fun h => (Option.some.inj h).symm, fun h => congrArg some h.symm⟩
  | cons x xs ih =>
    rw [List.mapM_cons, List.forall₂_cons_left_iff]
    simp only [Option.bind_eq_bind, Option.bind_eq_some_iff, Option.pure_def, Option.some.injEq, ih]
    constructor
    · rintro ⟨y, hy, rest, hr, rfl⟩
      exact ⟨y, rest, hy, hr, rfl⟩
    · rintro ⟨y, rest, hy, hr, rfl⟩
      exact ⟨y, hy, rest, hr, rfl⟩

theorem filterMap_eq_of_mapM {α β : Type} {f : α → Option β} {xs : List α} {ys : List β} (h : xs.mapM f = some ys) :
    xs.filterMap f = ys := by
  rw [mapM_eq_some_iff] at h
  induction h with
  | nil => rfl
  | cons first _ ih => rw [List.filterMap_cons_some first, ih]

namespace Yaml.Value

/-- The text stands as a key, but with a tag. -/
def isTaggedKey (name : String) : Value → Bool
  | .tagged _ v => v.text? == some name
  | _ => false

/-- The mapping has a tagged key of that text. -/
def tagsKey (name : String) (v : Value) : Bool := (v.mapping?.getD []).any fun p => isTaggedKey name p.1

/-- The members of a sequence, or none where nothing or something else stands. -/
def members (v : Option Value) : List Value := (v.bind sequence?).getD []

theorem lookup_cons (name : String) (p : Value × Value) (ps : List (Value × Value)) :
    lookup name (p :: ps) = if p.1.text? = some name ∧ isTaggedKey name p.1 = false then some p.2 else lookup name ps := by
  obtain ⟨k, v⟩ := p
  cases k with
  | text s => simp [lookup, text?, untag, isTaggedKey]
  | tagged t k => simp [lookup, text?, untag, isTaggedKey]
  | _ => simp [lookup, text?, untag]

theorem text?_of_isTaggedKey {name : String} {v : Value} (h : isTaggedKey name v = true) : v.text? = some name := by
  cases v with
  | tagged t v => exact beq_iff_eq.mp h
  | _ => exact nomatch h

end Yaml.Value

namespace Manifest.Draft

open Yaml (Value)

variable {known : List String} {name : String}

/-- A text that is no key is found neither with a tag nor without one. -/
theorem lookup_of_forall {pairs : List (Value × Value)} (other : ∀ p ∈ pairs, p.1.text? ≠ some name) :
    Value.lookup name pairs = none ∧ (pairs.any fun p => Value.isTaggedKey name p.1) = false := by
  induction pairs with
  | nil => exact ⟨rfl, rfl⟩
  | cons p ps ih =>
    rw [List.forall_mem_cons] at other
    obtain ⟨missing, plain⟩ := ih other.2
    refine ⟨?_, ?_⟩
    · rw [Value.lookup_cons, if_neg (mt And.left other.1), missing]
    · rw [List.any_cons, plain, Bool.or_false]
      exact Bool.eq_false_iff.mpr (mt Value.text?_of_isTaggedKey other.1)

/-- The pairs are labelled by the texts of their keys. -/
abbrev Keys (pairs : List (Value × Value)) (fields : Fields) : Prop :=
  List.Forall₂ (fun p f => p.1.text? = some f.1 ∧ f.2 = p.2) pairs fields

theorem Keys.text?_ne {pairs : List (Value × Value)} {fields : Fields} (h : Keys pairs fields)
    (missing : name ∉ fields.map Prod.fst) : ∀ p ∈ pairs, p.1.text? ≠ some name := by
  induction h with
  | nil => exact List.forall_mem_nil _
  | cons first _ ih =>
    rw [List.map_cons, List.mem_cons, not_or] at missing
    refine List.forall_mem_cons.mpr ⟨fun same => missing.1 ?_, ih missing.2⟩
    exact Option.some.inj (same.symm.trans first.1)

/-- A field is looked up among the pairs as it is among those that are labelled, unless its key is tagged. -/
theorem Keys.lookup {pairs : List (Value × Value)} {fields : Fields} (h : Keys pairs fields) (member : name ∈ known)
    (once : ((fields.filter fun f => known.contains f.1).map Prod.fst).Nodup) :
    Value.lookup name pairs = if pairs.any (fun p => Value.isTaggedKey name p.1) then none
      else (fields.filter fun f => known.contains f.1).lookup name := by
  induction h with
  | nil => rfl
  | @cons p f ps fs first rest ih =>
    obtain ⟨k, v⟩ := f
    obtain ⟨text, rfl⟩ := first
    dsimp only at text
    rw [Value.lookup_cons, List.any_cons, text]
    rw [List.filter_cons] at once ⊢
    dsimp only at once ⊢
    by_cases same : k = name
    · subst same
      have kept : known.contains k = true := List.contains_iff_mem.mpr member
      rw [if_pos kept, List.map_cons, List.nodup_cons] at once
      have later : k ∉ fs.map Prod.fst := by
        intro mem
        obtain ⟨g, hg, same⟩ := List.mem_map.mp mem
        exact once.1 (List.mem_map.mpr ⟨g, List.mem_filter.mpr ⟨hg, by rw [same]; exact kept⟩, same⟩)
      obtain ⟨missing, plain⟩ := lookup_of_forall (Keys.text?_ne rest later)
      rw [plain, missing, Bool.or_false, if_pos kept, List.lookup_cons_self]
      cases Value.isTaggedKey k p.1 <;> simp
    · have plain : Value.isTaggedKey name p.1 = false := by
        refine Bool.eq_false_iff.mpr fun tagged => same ?_
        exact Option.some.inj (text.symm.trans (Value.text?_of_isTaggedKey tagged))
      have other : (name == k) = false := beq_eq_false_iff_ne.mpr (Ne.symm same)
      rw [plain, Bool.false_or, if_neg (by simpa using same)]
      split at once
      · rename_i kept
        rw [if_pos kept, List.lookup_cons, other]
        exact ih (List.nodup_cons.mp once).2
      · rename_i dropped
        rw [if_neg dropped]
        exact ih once

/-- What the schema reads of a field is what stands under its key, where the key is not tagged. -/
theorem get?_of_fields? {v : Value} {fields : Fields} (read : fields? known v = some fields) (member : name ∈ known) :
    v.get? name = if v.tagsKey name then none else fields.lookup name := by
  unfold Value.get? Value.tagsKey Value.mapping?
  unfold fields? at read
  split at read
  · rename_i null
    obtain rfl := Option.some.inj read
    rw [null]
    rfl
  · rename_i pairs mapping
    rw [mapping]
    simp only [Option.bind_eq_bind, Option.bind_eq_some_iff] at read
    obtain ⟨labelled, keyed, read⟩ := read
    split at read
    · rename_i once
      obtain rfl := Option.some.inj read
      have keys : Keys pairs labelled := (mapM_eq_some_iff.mp keyed).imp fun p f h => by
        obtain ⟨k, text, rfl⟩ := Option.map_eq_some_iff.mp h
        exact ⟨text, rfl⟩
      exact keys.lookup member once
    · exact nomatch read
  · exact nomatch read

variable {α : Type} {fields : Fields} {read : Value → Option α} {xs : List α}

/-- The members of a list are read one by one, and there are none if nothing or null stands for it. -/
theorem mapM_members (h : get? fields name [] (list? read) = some xs) :
    (Value.members (fields.lookup name)).mapM read = some xs := by
  unfold get? at h
  cases found : fields.lookup name with
  | none =>
    rw [found] at h
    exact h
  | some v =>
    rw [found] at h
    dsimp only [list?] at h
    unfold Value.members Value.sequence?
    rw [Option.bind_some]
    split at h
    · rename_i null
      rw [null]
      exact h
    · rename_i items sequence
      rw [sequence]
      exact h
    · exact nomatch h

theorem files_of_service? {v : Value} {s : ServiceDraft} (h : service? v = some s) :
    (Value.members (v.get? "files")).filterMap Value.text? = if v.tagsKey "files" then [] else s.files := by
  unfold service? at h
  simp only [Option.bind_eq_bind, Option.bind_eq_some_iff] at h
  obtain ⟨fields, known, filters, -, name, -, subclass, -, files, listed, publish, -, authors, -, h⟩ := h
  obtain rfl := Option.some.inj h
  rw [get?_of_fields? known (by decide)]
  split
  · rfl
  · exact filterMap_eq_of_mapM (mapM_members listed)

end Manifest.Draft

namespace Service

open Yaml (Value)

/-- The files are under a tagged key, or their service is. -/
def hidesFiles (document : Value) : Bool :=
  document.tagsKey "services" || (Value.members (document.get? "services")).any (·.tagsKey "files")

/-- The resolver finds the files of the service that is drafted, or nothing if they are hidden. -/
theorem files_of_draft {document : Value} {draft : Manifest.Draft} (fits : Manifest.Draft.ofValue? document = some draft)
    (single : draft.services.length ≤ 1) :
    files document = if hidesFiles document then [] else draft.services.flatMap Manifest.ServiceDraft.files := by
  unfold Manifest.Draft.ofValue? at fits
  simp only [Option.bind_eq_bind, Option.bind_eq_some_iff] at fits
  obtain ⟨fields, known, workflows, -, services, listed, fits⟩ := fits
  obtain rfl := Option.some.inj fits
  have under : document.get? "services" = if document.tagsKey "services" then none else fields.lookup "services" :=
    Manifest.Draft.get?_of_fields? known (by decide)
  have walked : files document = (Value.members (document.get? "services")).flatMap fun s =>
      (Value.members (s.get? "files")).filterMap Value.text? := rfl
  unfold hidesFiles
  rw [walked]
  cases tagged : document.tagsKey "services" with
  | true =>
    rw [under, if_pos tagged]
    rfl
  | false =>
    rw [tagged, if_neg Bool.false_ne_true] at under
    have drafted := mapM_eq_some_iff.mp (Manifest.Draft.mapM_members listed)
    rw [← under] at drafted
    generalize Value.members (document.get? "services") = items at drafted
    -- there is one service at most, so the files of all services are hidden or none are
    cases drafted with
    | nil => rfl
    | cons first rest =>
      obtain rfl := List.eq_nil_of_length_eq_zero (Nat.le_zero.mp (Nat.le_of_succ_le_succ single))
      rw [List.forall₂_nil_right_iff.mp rest]
      simp only [List.flatMap_cons, List.flatMap_nil, List.append_nil, List.any_cons, List.any_nil, Bool.or_false,
        Bool.false_or]
      exact Manifest.Draft.files_of_service? first

end Service

namespace Manifest

/-- The service of a manifest has the files of the service that was drafted. -/
theorem Draft.Declares.files {draft : Draft} {m : Manifest} (declares : draft.Declares m)
    (single : draft.services.length ≤ 1) {d : Declaration} (declared : d ∈ m.entries) (kind : d.kind = .service) :
    d.files = (draft.services.flatMap ServiceDraft.files).map Path.normalize := by
  obtain ⟨ws, ss, entries, workflows, services⟩ := declares
  rw [entries, List.mem_append] at declared
  rcases declared with ofWorkflow | ofService
  · obtain ⟨w, -, declares⟩ := exists_of_forall₂ workflows.flip ofWorkflow
    exact nomatch kind.symm.trans declares.kind
  · generalize draft.services = drafted at services single ⊢
    cases services with
    | nil => exact absurd ofService List.not_mem_nil
    | cons first rest =>
      obtain rfl := List.eq_nil_of_length_eq_zero (Nat.le_zero.mp (Nat.le_of_succ_le_succ single))
      obtain rfl := List.forall₂_nil_left_iff.mp rest
      obtain rfl := List.mem_singleton.mp ofService
      rw [List.flatMap_cons, List.flatMap_nil, List.append_nil]
      exact first.files

theorem Draft.Declares.services_eq_nil {draft : Draft} {m : Manifest} (declares : draft.Declares m)
    (none_declared : ∀ d ∈ m.entries, d.kind ≠ .service) : draft.services = [] := by
  obtain ⟨ws, ss, entries, -, services⟩ := declares
  generalize draft.services = drafted at services ⊢
  cases services with
  | nil => rfl
  | cons first _ =>
    exact absurd first.kind (none_declared _ (entries ▸ List.mem_append_right _ List.mem_cons_self))

/-- The files that the resolver of services finds in a manifest that was accepted are those of the service that is
declared, in the same order, unless the document hides them behind a tagged key: then it finds none. Where no service is
declared it finds none either. -/
theorem service_files_agree_unless_hidden {content : String} {m : Manifest} (accepted : parse content = .ok m) :
    ∃ document, Yaml.Value.read? content = some document ∧
      (∀ d ∈ m.entries, d.kind = .service →
        (Service.imports path content).map (fun i => Path.normalize i.path) =
          if Service.hidesFiles document then [] else d.files) ∧
      ((∀ d ∈ m.entries, d.kind ≠ .service) → Service.imports path content = []) := by
  obtain ⟨document, draft, version, read, fits, made⟩ := drafted_of_parse accepted
  obtain ⟨right, -, declares⟩ := declares_of_ofDraft made
  have found := Service.files_of_draft fits right.single
  have imports : Service.imports path content = (Service.files document).map fun p => ⟨p, .serviceFile⟩ := by
    unfold Service.imports
    rw [if_neg (not_not_intro rfl), read]
  refine ⟨document, read, fun d declared kind => ?_, fun none_declared => ?_⟩
  · rw [imports, found, declares.files right.single declared kind, List.map_map]
    split <;> rfl
  · rw [imports, found, declares.services_eq_nil none_declared]
    split <;> rfl

end Manifest

namespace Sample

/-- A service with two files, under keys that are written in that way. -/
def serviceManifest (services files : String) : String :=
  "version: 1.2\n" ++ services ++ ":\n- subclass: HELM\n  " ++ files ++ ": [./b.yml, a.yml]"

/-- The kinds and files of what a manifest declares, and the files that the resolver finds in it. -/
def serviceFiles (content : String) : Option (List (EntryKind × List String) × List String) :=
  (Manifest.parse content).toOption.map fun m => (m.entries.map fun d => (d.kind, d.files),
    (Service.imports Manifest.path content).map fun i => Path.normalize i.path)

theorem exists_of_serviceFiles {content : String} {files found : List String}
    (h : serviceFiles content = some ([(.service, files)], found)) :
    ∃ m d, Manifest.parse content = .ok m ∧ d ∈ m.entries ∧ d.kind = .service ∧ d.files = files ∧
      (Service.imports Manifest.path content).map (fun i => Path.normalize i.path) = found := by
  obtain ⟨m, parsed, h⟩ := Option.map_eq_some_iff.mp h
  obtain ⟨declared, found⟩ := Prod.mk.inj h
  obtain ⟨d, entries, both⟩ := List.map_eq_singleton_iff.mp declared
  obtain ⟨kind, files⟩ := Prod.mk.inj both
  exact ⟨m, d, toOption_eq_some_iff.mp parsed, entries ▸ List.mem_singleton_self d, kind, files, found⟩

end Sample

namespace Manifest

/-- The files of a service whose keys have no tags, as they are declared and as they are found. -/
theorem sample_service_files :
    ∃ m d, parse (Sample.serviceManifest "services" "files") = .ok m ∧ d ∈ m.entries ∧ d.kind = .service ∧
      d.files = ["/b.yml", "/a.yml"] ∧
      (Service.imports path (Sample.serviceManifest "services" "files")).map (fun i => Path.normalize i.path) =
        d.files := by
  have plain : (Yaml.Value.read? (Sample.serviceManifest "services" "files")).map Service.hidesFiles = some false := by
    decide +kernel
  have declared : Sample.serviceFiles (Sample.serviceManifest "services" "files") =
      some ([(.service, ["/b.yml", "/a.yml"])], ["/b.yml", "/a.yml"]) := by decide +kernel
  obtain ⟨m, d, accepted, member, kind, files, -⟩ := Sample.exists_of_serviceFiles declared
  obtain ⟨document, read, agree, -⟩ := service_files_agree_unless_hidden accepted
  rw [read, Option.map_some, Option.some.injEq] at plain
  have same := agree d member kind
  rw [plain, if_neg Bool.false_ne_true] at same
  exact ⟨m, d, accepted, member, kind, files, same⟩

/-- With a tag on either key the manifest is accepted with the same files, but the resolver finds none of them. -/
theorem files_hidden_by_tag :
    (∀ keys ∈ [("!t services", "files"), ("services", "!t files")],
      Sample.serviceFiles (Sample.serviceManifest keys.1 keys.2) = some ([(.service, ["/b.yml", "/a.yml"])], [])) ∧
    ¬ ∀ content m, parse content = .ok m → ∀ d ∈ m.entries, d.kind = .service →
      (Service.imports path content).map (fun i => Path.normalize i.path) = d.files := by
  have hidden : ∀ keys ∈ [("!t services", "files"), ("services", "!t files")],
      Sample.serviceFiles (Sample.serviceManifest keys.1 keys.2) = some ([(.service, ["/b.yml", "/a.yml"])], []) := by
    decide +kernel
  refine ⟨hidden, fun agree => ?_⟩
  obtain ⟨m, d, accepted, member, kind, files, found⟩ := Sample.exists_of_serviceFiles (hidden _ List.mem_cons_self)
  have same := agree _ m accepted d member kind
  rw [found, files] at same
  exact nomatch same

end Manifest

end WorkflowCatalog
