import WorkflowCatalog.Descriptor.Cwl

/-!
# References in a document

A document is a tree of mappings, sequences and tagged values, in which a key is the label of the value next to it. The
texts under import keys stand at places of the tree, and the places are ordered as the document has them. Every file
that one of these texts names is listed once, in the order of the places where the files are named first.
-/
namespace WorkflowCatalog.Cwl

open Yaml (Value)

/-- A text under an import key stands at the place: in that part of the tree, in that part of this part, and so on. -/
inductive Refers : Value → List Nat → String → Prop
  | here {pairs : List (Value × Value)} {i : Nat} {key child : Value} {s : String}
      (entry : pairs[i]? = some (key, child)) (imports : isImportKey key = true) (text : child.text? = some s) :
      Refers (.mapping pairs) [i] s
  | under {pairs : List (Value × Value)} {i : Nat} {key child : Value} {place : List Nat} {s : String}
      (entry : pairs[i]? = some (key, child)) (inside : Refers child place s) : Refers (.mapping pairs) (i :: place) s
  | item {items : List Value} {i : Nat} {child : Value} {place : List Nat} {s : String} (entry : items[i]? = some child)
      (inside : Refers child place s) : Refers (.sequence items) (i :: place) s
  | tagged {tag : String} {value : Value} {place : List Nat} {s : String} (inside : Refers value place s) :
      Refers (.tagged tag value) place s

/-- The reference at the place names a file: what stands in front of the first `#`, without the blanks around it. -/
def NamesAt (document : Value) (place : List Nat) (file : String) : Prop :=
  ∃ s, Refers document place s ∧ file = String.ofList (Text.trim (s.toList.takeWhile (· ≠ '#'))) ∧ file ≠ ""

/-- Each file that is named is listed once, and those that are named earlier are listed earlier. -/
structure IsListing (document : Value) (files : List String) : Prop where
  distinct : files.Nodup
  members : ∀ file, file ∈ files ↔ ∃ place, NamesAt document place file
  ordered : files.Pairwise fun a b =>
    ∃ place, NamesAt document place a ∧ ∀ other, NamesAt document other b → place < other

/-- There is one list of the files at most. -/
theorem IsListing.unique {document : Value} {files others : List String} (h : IsListing document files)
    (h' : IsListing document others) : files = others := by
  refine List.Perm.eq_of_pairwise ?_ h.ordered h'.ordered ?_
  · rintro a b - - ⟨p, at_p, first⟩ ⟨q, at_q, first'⟩
    exact absurd (first q at_q) (List.lt_asymm (first' p at_p))
  · refine (List.perm_ext_iff_of_nodup h.distinct h'.distinct).mpr fun file => ?_
    rw [h.members, h'.members]

/-! ## Texts in the order of their places -/

/-- These are the texts at some places, in the order of the places. -/
def Enumerates (texts : List String) (stands : List Nat → String → Prop) : Prop :=
  ∃ ps : List (List Nat × String), ps.map Prod.snd = texts ∧ ps.Pairwise (fun p q => p.1 < q.1) ∧
    ∀ place s, (place, s) ∈ ps ↔ stands place s

namespace Enumerates

variable {texts more : List String} {stands follows : List Nat → String → Prop}

theorem congr (h : Enumerates texts stands) (same : ∀ place s, stands place s ↔ follows place s) :
    Enumerates texts follows := by
  obtain ⟨ps, listed, ordered, members⟩ := h
  exact ⟨ps, listed, ordered, fun place s => (members place s).trans (same place s)⟩

theorem mem_iff (h : Enumerates texts stands) {s : String} : s ∈ texts ↔ ∃ place, stands place s := by
  obtain ⟨ps, rfl, -, members⟩ := h
  simp only [List.mem_map, Prod.exists, exists_eq_right, members]

theorem nil (nothing : ∀ place s, ¬ stands place s) : Enumerates [] stands :=
  ⟨[], rfl, .nil, fun place s => iff_of_false List.not_mem_nil (nothing place s)⟩

theorem append (h : Enumerates texts stands) (k : Enumerates more follows)
    (apart : ∀ p s q t, stands p s → follows q t → p < q) :
    Enumerates (texts ++ more) fun place s => stands place s ∨ follows place s := by
  obtain ⟨ps, rfl, ordered, members⟩ := h
  obtain ⟨qs, rfl, ordered', members'⟩ := k
  refine ⟨ps ++ qs, List.map_append, List.pairwise_append.mpr ⟨ordered, ordered', ?_⟩, fun place s => ?_⟩
  · rintro ⟨p, s⟩ hp ⟨q, t⟩ hq
    exact apart p s q t ((members p s).mp hp) ((members' q t).mp hq)
  · rw [List.mem_append, members, members']

/-- The same texts, in a part of a tree. -/
theorem below (h : Enumerates texts stands) (i : Nat) :
    Enumerates texts fun place s => ∃ rest, place = i :: rest ∧ stands rest s := by
  obtain ⟨ps, rfl, ordered, members⟩ := h
  refine ⟨ps.map fun p => (i :: p.1, p.2), ?_, ?_, fun place s => ?_⟩
  · rw [List.map_map]
    rfl
  · rw [List.pairwise_map]
    exact ordered.imp fun less => List.cons_lt_cons_iff.mpr (.inr ⟨rfl, less⟩)
  · simp only [List.mem_map, Prod.mk.injEq, Prod.exists, members]
    constructor
    · rintro ⟨rest, t, at_rest, rfl, rfl⟩
      exact ⟨rest, rfl, at_rest⟩
    · rintro ⟨rest, rfl, at_rest⟩
      exact ⟨rest, s, at_rest, rfl, rfl⟩

/-- The texts of all parts, one part after the other. -/
theorem flatMap {γ : Type} {f : γ → List String} {inside : γ → List Nat → String → Prop} {parts : List γ}
    (h : ∀ c ∈ parts, Enumerates (f c) (inside c)) (i : Nat) :
    Enumerates (parts.flatMap f) fun place s =>
      ∃ j c rest, parts[j]? = some c ∧ place = (i + j) :: rest ∧ inside c rest s := by
  induction parts generalizing i with
  | nil => exact nil fun place s ⟨j, c, rest, entry, _⟩ => by simp at entry
  | cons c parts ih =>
    rw [List.forall_mem_cons] at h
    have joined := (h.1.below i).append (ih h.2 (i + 1)) ?_
    · rw [List.flatMap_cons]
      refine joined.congr fun place s => ?_
      constructor
      · rintro (⟨rest, rfl, at_rest⟩ | ⟨j, d, rest, entry, rfl, at_rest⟩)
        · exact ⟨0, c, rest, rfl, rfl, at_rest⟩
        · exact ⟨j + 1, d, rest, entry, by rw [Nat.add_right_comm]; rfl, at_rest⟩
      · rintro ⟨j, d, rest, entry, rfl, at_rest⟩
        cases j with
        | zero => exact .inl ⟨rest, rfl, Option.some.inj entry ▸ at_rest⟩
        | succ j => exact .inr ⟨j, d, rest, entry, by rw [Nat.add_right_comm]; rfl, at_rest⟩
    · rintro _ s _ t ⟨rest, rfl, -⟩ ⟨j, d, rest', -, rfl, -⟩
      exact List.cons_lt_cons_iff.mpr (.inl (by omega))

theorem map (h : Enumerates texts stands) (f : String → String) :
    Enumerates (texts.map f) fun place t => ∃ s, stands place s ∧ t = f s := by
  obtain ⟨ps, rfl, ordered, members⟩ := h
  refine ⟨ps.map fun p => (p.1, f p.2), ?_, ?_, fun place t => ?_⟩
  · rw [List.map_map, List.map_map]
    rfl
  · exact List.pairwise_map.mpr ordered
  · simp only [List.mem_map, Prod.mk.injEq, Prod.exists, members]
    constructor
    · rintro ⟨p, s, at_p, rfl, rfl⟩
      exact ⟨s, at_p, rfl⟩
    · rintro ⟨s, at_p, rfl⟩
      exact ⟨place, s, at_p, rfl, rfl⟩

theorem filter (h : Enumerates texts stands) (p : String → Bool) :
    Enumerates (texts.filter p) fun place s => stands place s ∧ p s = true := by
  obtain ⟨ps, rfl, ordered, members⟩ := h
  refine ⟨ps.filter fun q => p q.2, ?_, ordered.sublist List.filter_sublist, fun place s => ?_⟩
  · rw [List.filter_map]
    rfl
  · rw [List.mem_filter, members]

end Enumerates

/-- Of two members that are left of a list, the earlier one stands somewhere in front of all that are like the other. -/
theorem pairwise_eraseDups {α : Type} [BEq α] [LawfulBEq α] (l : List α) :
    l.eraseDups.Pairwise fun a b => a ≠ b ∧ ∃ before after, l = before ++ a :: after ∧ b ∉ before := by
  match l with
  | [] => exact .nil
  | x :: xs =>
    rw [List.eraseDups_cons, List.pairwise_cons]
    have other : ∀ {b}, b ∈ (xs.filter fun c => !c == x).eraseDups → x ≠ b := by
      intro b hb
      rw [List.mem_eraseDups, List.mem_filter] at hb
      rintro rfl
      simp at hb
    refine ⟨fun b hb => ⟨other hb, [], xs, rfl, List.not_mem_nil⟩, ?_⟩
    refine (pairwise_eraseDups (xs.filter fun c => !c == x)).imp_of_mem ?_
    rintro a b - hb ⟨ne, before, after, split, absent⟩
    -- What was left out in front of the member is like the first member.
    obtain ⟨kept, rest, rfl, rfl, rest_split⟩ := List.filter_eq_append_iff.mp split
    obtain ⟨dropped, after', rfl, like, -, -⟩ := List.filter_eq_cons_iff.mp rest_split
    refine ⟨ne, x :: (kept ++ dropped), after', by simp, ?_⟩
    simp only [List.mem_cons, List.mem_append, not_or]
    refine ⟨(other hb).symm, fun hk => absent ?_, fun hd => ?_⟩
    · exact List.mem_filter.mpr ⟨hk, by simpa using (other hb).symm⟩
    · exact (other hb).symm (by simpa using like b hd)
termination_by l.length
decreasing_by exact Nat.lt_succ_of_le (List.length_filter_le _ _)

/-- Without repetitions, texts are in the order of the first place of each. -/
theorem Enumerates.ordered_eraseDups {texts : List String} {stands : List Nat → String → Prop}
    (h : Enumerates texts stands) :
    texts.eraseDups.Pairwise fun a b => a ≠ b ∧ ∃ place, stands place a ∧ ∀ other, stands other b → place < other := by
  obtain ⟨ps, rfl, ordered, members⟩ := h
  refine (pairwise_eraseDups _).imp fun ⟨ne, before, after, split, absent⟩ => ⟨ne, ?_⟩
  obtain ⟨front, back, rfl, rfl, tail⟩ := List.map_eq_append_iff.mp split
  obtain ⟨⟨place, s⟩, later, rfl, rfl, rfl⟩ := List.map_eq_cons_iff.mp tail
  refine ⟨place, (members place s).mp (by simp), fun other at_other => ?_⟩
  rw [List.pairwise_append, List.pairwise_cons] at ordered
  rcases List.mem_append.mp ((members other _).mpr at_other) with early | late
  · exact absurd (List.mem_map_of_mem early) absent
  · rcases List.mem_cons.mp late with same | later
    · exact absurd (congrArg Prod.snd same).symm ne
    · exact ordered.2.1.1 _ later

/-! ## References of a tree -/

/-- What stands in one entry of a mapping. -/
def RefersIn (entry : Value × Value) (place : List Nat) (s : String) : Prop :=
  (isImportKey entry.1 = true ∧ entry.2.text? = some s ∧ place = []) ∨ Refers entry.2 place s

theorem refers_mapping {pairs : List (Value × Value)} {place : List Nat} {s : String} :
    Refers (.mapping pairs) place s ↔
      ∃ i entry rest, pairs[i]? = some entry ∧ place = i :: rest ∧ RefersIn entry rest s := by
  constructor
  · intro h
    cases h with
    | here entry imports text => exact ⟨_, _, _, entry, rfl, .inl ⟨imports, text, rfl⟩⟩
    | under entry inside => exact ⟨_, _, _, entry, rfl, .inr inside⟩
  · rintro ⟨i, ⟨key, child⟩, rest, entry, rfl, ⟨imports, text, rfl⟩ | inside⟩
    · exact .here entry imports text
    · exact .under entry inside

theorem refers_sequence {items : List Value} {place : List Nat} {s : String} :
    Refers (.sequence items) place s ↔
      ∃ i child rest, items[i]? = some child ∧ place = i :: rest ∧ Refers child rest s := by
  constructor
  · rintro ⟨⟩
    rename_i entry inside
    exact ⟨_, _, _, entry, rfl, inside⟩
  · rintro ⟨i, child, rest, entry, rfl, inside⟩
    exact .item entry inside

theorem refers_tagged {tag : String} {value : Value} {place : List Nat} {s : String} :
    Refers (.tagged tag value) place s ↔ Refers value place s :=
  ⟨fun | .tagged inside => inside, .tagged⟩

/-- There is nothing to look for in a text, be it tagged or not. -/
theorem not_refers_of_text {value : Value} {place : List Nat} {s t : String} (text : value.text? = some t) :
    ¬ Refers value place s := by
  intro h
  induction h with
  | here => exact nomatch text
  | under => exact nomatch text
  | item => exact nomatch text
  | tagged _ ih => exact ih text

/-- The texts of one entry of a mapping. -/
def entryReferences (entry : Value × Value) : List String :=
  match isImportKey entry.1, entry.2.text? with
  | true, some s => [s]
  | _, _ => references entry.2

theorem referencesOfPairs_eq (pairs : List (Value × Value)) :
    referencesOfPairs pairs = pairs.flatMap entryReferences := by
  induction pairs with
  | nil => rfl
  | cons entry pairs ih =>
    rw [referencesOfPairs, ih, List.flatMap_cons]
    rfl

theorem referencesOfItems_eq (items : List Value) : referencesOfItems items = items.flatMap references := by
  induction items with
  | nil => rfl
  | cons item items ih => rw [referencesOfItems, ih, List.flatMap_cons]

theorem enumerates_entry {entry : Value × Value} (h : Enumerates (references entry.2) (Refers entry.2)) :
    Enumerates (entryReferences entry) (RefersIn entry) := by
  unfold entryReferences
  split
  · rename_i s imports text
    refine ⟨[([], s)], rfl, List.pairwise_singleton _ _, fun place t => ?_⟩
    have nothing : ¬ Refers entry.2 place t := not_refers_of_text text
    simp only [List.mem_singleton, Prod.mk.injEq, RefersIn, imports, text, nothing, Option.some.injEq, or_false,
      true_and]
    exact ⟨fun ⟨at_place, same⟩ => ⟨same.symm, at_place⟩, fun ⟨same, at_place⟩ => ⟨at_place, same.symm⟩⟩
  · rename_i other
    refine h.congr fun place t => (or_iff_right ?_).symm
    rintro ⟨imports, text, -⟩
    exact other t imports text

theorem sizeOf_child_lt {pairs : List (Value × Value)} {entry : Value × Value} (member : entry ∈ pairs) :
    sizeOf entry.2 < 1 + sizeOf pairs := by
  obtain ⟨key, child⟩ := entry
  have within := List.sizeOf_lt_of_mem member
  rw [Prod.mk.sizeOf_spec] at within
  show sizeOf child < 1 + sizeOf pairs
  omega

/-- The texts under import keys are found in the order of their places. -/
theorem enumerates_references (document : Value) : Enumerates (references document) (Refers document) := by
  match document with
  | .mapping pairs =>
    have entries : ∀ entry ∈ pairs, Enumerates (entryReferences entry) (RefersIn entry) := by
      intro entry member
      have smaller := sizeOf_child_lt member
      exact enumerates_entry (enumerates_references entry.2)
    rw [references, referencesOfPairs_eq]
    refine (Enumerates.flatMap entries 0).congr fun place s => ?_
    simp only [refers_mapping, Nat.zero_add]
  | .sequence items =>
    have each : ∀ item ∈ items, Enumerates (references item) (Refers item) :=
      fun item member => enumerates_references item
    rw [references, referencesOfItems_eq]
    refine (Enumerates.flatMap each 0).congr fun place s => ?_
    simp only [refers_sequence, Nat.zero_add]
  | .tagged tag value =>
    rw [references]
    exact (enumerates_references value).congr fun place s => refers_tagged.symm
  | .null | .bool _ | .number _ | .text _ => exact .nil fun place s h => nomatch h
termination_by document

theorem target_eq (reference : String) :
    target reference = String.ofList (Text.trim (reference.toList.takeWhile (· ≠ '#'))) := by
  have cut (cs : List Char) : (Text.cutAt '#' cs).1 = cs.takeWhile (· ≠ '#') := by
    induction cs with
    | nil => rfl
    | cons c cs ih => by_cases mark : c = '#' <;> simp [Text.cutAt, mark, ih]
  rw [target, cut]

theorem isListing_targets (document : Value) : IsListing document (targets document) := by
  have named := ((enumerates_references document).map target).filter fun t => !t.isEmpty
  have same : ∀ place file, ((∃ s, Refers document place s ∧ file = target s) ∧ (!file.isEmpty) = true) ↔
      NamesAt document place file := by
    intro place file
    simp only [NamesAt, target_eq, Bool.not_eq_true', String.isEmpty_eq_false_iff, ne_eq]
    grind
  have ordered := (named.congr same).ordered_eraseDups
  refine ⟨ordered.imp And.left, fun file => ?_, ordered.imp And.right⟩
  rw [targets, List.mem_eraseDups, (named.congr same).mem_iff]

/-- The imports of a document are the files that its references name, each once and in the order in which they are named
first, whatever the document is. -/
theorem imports_list_references (document : Value) :
    (∀ files, IsListing document files ↔ files = targets document) ∧
      ∀ content, Value.read? content = some document → imports content = (targets document).map fun p => ⟨p, .cwl⟩ := by
  refine ⟨fun files => ⟨fun listing => listing.unique (isListing_targets document), ?_⟩, fun content read => ?_⟩
  · rintro rfl
    exact isListing_targets document
  · rw [imports, read]

/-- References to one file and into it, a step that is written in place, and a reference that names nothing. -/
theorem sample_references_listed :
    let content :=
      "steps:\n  a:\n    run: b.cwl#main\n  c:\n    run:\n      $import: d.yml\n  e:\n    run: b.cwl\n    $mixin: '#f'"
    ∃ document, Value.read? content = some document ∧ imports content = [⟨"b.cwl", .cwl⟩, ⟨"d.yml", .cwl⟩] ∧
      IsListing document ["b.cwl", "d.yml"] := by
  intro content
  obtain ⟨document, read⟩ := Option.isSome_iff_exists.mp (show (Value.read? content).isSome = true by decide +kernel)
  have listed : imports content = [⟨"b.cwl", .cwl⟩, ⟨"d.yml", .cwl⟩] := by decide +kernel
  obtain ⟨exactly, told⟩ := imports_list_references document
  refine ⟨document, read, listed, (exactly _).mpr ?_⟩
  have files := congrArg (List.map ImportRef.path) (listed.symm.trans (told content read))
  simpa [Function.comp_def] using files

end WorkflowCatalog.Cwl
