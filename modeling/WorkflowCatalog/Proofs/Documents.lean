import WorkflowCatalog.Proofs.JsonText
import WorkflowCatalog.Store.Document

/-!
# Reading back what was stored

The document of a store gives the store back, down to the order of its lists and to which optional values are absent.
So no two stores have one document. Each record is read back from what is written of it if each of its fields is.
-/
namespace WorkflowCatalog

namespace Json

/-- A value is read back from what is written of it, which is plain and not what stands for an absent value. -/
structure Coding {α : Type} (write : α → Json) (read : Json → Option α) : Prop where
  plain : ∀ a, (write a).IsPlain
  present : ∀ a, write a ≠ null
  read : ∀ a, read (write a) = some a

namespace Coding

variable {α : Type} {write : α → Json} {read : Json → Option α}

theorem text : Coding .text text? := ⟨.text, nofun, fun _ => rfl⟩

theorem list (h : Coding write read) : Coding (ofList write) (list? read) where
  plain as := .array (List.forall_mem_map.mpr fun a _ => h.plain a)
  present _ := nofun
  read as := by
    rw [list?, ofList, array?, Option.bind_some]
    induction as with
    | nil => rfl
    | cons a as ih => simp [h.read, ih]

theorem plain_ofOption (h : Coding write read) (o : Option α) : (ofOption write o).IsPlain := by
  cases o with
  | none => exact .null
  | some a => exact h.plain a

theorem option?_ofOption (h : Coding write read) (o : Option α) : option? read (ofOption write o) = some o := by
  cases o with
  | none => rfl
  | some a =>
    rw [ofOption, option?]
    · rw [h.read]
      rfl
    · exact h.present a

end Coding

/-- All fields of a record are known if they have the right names. -/
theorem record?_object {names : List String} {fields : List (String × Json)} (same : fields.map (·.1) = names)
    (distinct : names.Nodup) : (object fields).record? names = some ⟨false, fields⟩ := by
  have known : fields.filter (fun f => names.contains f.1) = fields :=
    List.filter_eq_self.mpr fun f hf => List.contains_iff_mem.mpr (same ▸ List.mem_map_of_mem hf)
  rw [record?, known]
  exact if_pos (same ▸ distinct)

attribute [simp] IsPlain.text IsPlain.bool

/-! ## Reading a record

The fields are read in their order, and what is left to be read comes after each.
-/

namespace Record

variable {α β : Type} {r : Record} {name : String} {j : Json} {read : Json → Option α} {a default : α} {o : Option α}
  {k : α → Option β} {l : Option α → Option β} {b : Option β}

theorem bind_record {names : List String} {fields : List (String × Json)} {k : Record → Option β}
    (same : fields.map (·.1) = names) (distinct : names.Nodup) (rest : k ⟨false, fields⟩ = b) :
    ((object fields).record? names >>= k) = b := by
  rw [record?_object same distinct]
  exact rest

theorem bind_required (field : r.values.lookup name = some j) (value : read j = some a) (rest : k a = b) :
    (r.required name read >>= k) = b := by
  rw [required, field, Option.bind_some, value]
  exact rest

theorem bind_optional (field : r.values.lookup name = some j) (value : j.option? read = some o) (rest : l o = b) :
    (r.optional name read >>= l) = b := by
  simp only [optional, field, value]
  exact rest

theorem bind_defaulted (field : r.values.lookup name = some j) (value : read j = some a) (rest : k a = b) :
    (r.defaulted name default read >>= k) = b := by
  simp only [defaulted, field, value]
  exact rest

end Record

end Json

open Json Json.Record

/-! ## Names -/

theorem Host.ofName?_name (h : Host) : ofName? h.name = some h := by cases h <;> rfl

theorem DigestAlgorithm.ofName?_name (a : DigestAlgorithm) : ofName? a.name = some a := by cases a <;> rfl

theorem FileType.ofName?_name (t : FileType) : ofName? t.name = some t := by cases t <;> rfl

theorem Language.ofName?_name (l : Language) : ofName? l.name = some l := by cases l <;> rfl

theorem ReferenceType.ofName?_name (t : ReferenceType) : ofName? t.name = some t := by cases t <;> rfl

theorem EntryKind.ofName?_name (k : EntryKind) : ofName? k.name = some k := by cases k <;> rfl

/-! ## Records -/

theorem EntryPath.coding : Coding toJson ofJson? where
  plain p := .object (by simp [Coding.text.plain_ofOption])
  present _ := nofun
  read p := by
    unfold toJson ofJson?
    refine bind_record rfl (by decide) ?_
    refine bind_required rfl (Host.ofName?_name _) ?_
    refine bind_required rfl rfl ?_
    refine bind_required rfl rfl ?_
    exact bind_optional rfl (Coding.text.option?_ofOption _) rfl

theorem Timestamp.coding : Coding toJson ofJson? where
  plain t := .text t.text
  present _ := nofun
  read t := ofText?_text t

theorem Checksum.coding : Coding toJson ofJson? where
  plain c := .object (by simp)
  present _ := nofun
  read c := by
    unfold toJson ofJson?
    refine bind_record rfl (by decide) ?_
    refine bind_required rfl (DigestAlgorithm.ofName?_name _) ?_
    exact bind_required rfl rfl rfl

theorem SourceFile.coding : Coding toJson ofJson? where
  plain f := .object (by simp [Coding.text.plain_ofOption, Checksum.coding.list.plain, Timestamp.coding.plain])
  present _ := nofun
  read f := by
    unfold toJson ofJson?
    refine bind_record rfl (by decide) ?_
    refine bind_required rfl rfl ?_
    refine bind_required rfl (FileType.ofName?_name _) ?_
    refine bind_required rfl rfl ?_
    refine bind_required rfl rfl ?_
    refine bind_optional rfl (Coding.text.option?_ofOption _) ?_
    refine bind_defaulted rfl (Checksum.coding.list.read _) ?_
    exact bind_required rfl (Timestamp.coding.read _) rfl

/-- A category is a name, or a record with the language of a descriptor. -/
theorem Category.coding : Coding toJson ofJson? where
  plain k := by
    cases k with
    | descriptor l => exact .object (by simp)
    | _ => exact .text _
  present k := by cases k <;> nofun
  read k := by
    cases k with
    | descriptor l => exact congrArg (Option.map Category.descriptor) (Language.ofName?_name l)
    | _ => rfl

theorem Validation.coding : Coding toJson ofJson? where
  plain v := .object (by simp [Category.coding.plain])
  present _ := nofun
  read v := by
    unfold toJson ofJson?
    refine bind_record rfl (by decide) ?_
    refine bind_required rfl (Category.coding.read _) ?_
    refine bind_required rfl rfl ?_
    exact bind_required rfl rfl rfl

theorem Version.coding : Coding toJson ofJson? where
  plain v := .object (by simp [Coding.text.plain_ofOption, Coding.text.list.plain, SourceFile.coding.list.plain,
    Validation.coding.list.plain, Timestamp.coding.plain_ofOption])
  present _ := nofun
  read v := by
    unfold toJson ofJson?
    refine bind_record rfl (by decide) ?_
    refine bind_required rfl rfl ?_
    refine bind_required rfl (ReferenceType.ofName?_name _) ?_
    refine bind_optional rfl (Coding.text.option?_ofOption _) ?_
    refine bind_defaulted rfl rfl ?_
    refine bind_defaulted rfl rfl ?_
    refine bind_required rfl (Language.ofName?_name _) ?_
    refine bind_defaulted rfl (Coding.text.option?_ofOption _) ?_
    refine bind_defaulted rfl (Coding.text.list.read _) ?_
    refine bind_defaulted rfl (SourceFile.coding.list.read _) ?_
    refine bind_defaulted rfl (Validation.coding.list.read _) ?_
    exact bind_defaulted rfl (Timestamp.coding.option?_ofOption _) rfl

theorem Entry.coding : Coding toJson ofJson? where
  plain e := .object (by simp [EntryPath.coding.plain, Coding.text.plain_ofOption, Coding.text.list.plain,
    Version.coding.list.plain])
  present _ := nofun
  read e := by
    unfold toJson ofJson?
    refine bind_record rfl (by decide) ?_
    refine bind_required rfl rfl ?_
    refine bind_required rfl (EntryPath.coding.read _) ?_
    refine bind_required rfl (EntryKind.ofName?_name _) ?_
    refine bind_required rfl (Language.ofName?_name _) ?_
    refine bind_required rfl rfl ?_
    refine bind_defaulted rfl (Coding.text.option?_ofOption _) ?_
    refine bind_defaulted rfl rfl ?_
    refine bind_defaulted rfl (Coding.text.list.read _) ?_
    exact bind_defaulted rfl (Version.coding.list.read _) rfl

theorem User.coding : Coding toJson ofJson? where
  plain u := .object (by simp [Timestamp.coding.plain])
  present _ := nofun
  read u := by
    unfold toJson ofJson?
    refine bind_record rfl (by decide) ?_
    refine bind_required rfl rfl ?_
    exact bind_required rfl (Timestamp.coding.read _) rfl

namespace Store

theorem coding : Coding toJson ofJson? where
  plain s := .object (by simp [Entry.coding.list.plain, User.coding.list.plain])
  present _ := nofun
  read s := by
    unfold toJson ofJson?
    refine bind_record rfl (by decide) ?_
    refine bind_defaulted rfl (Entry.coding.list.read _) ?_
    exact bind_defaulted rfl (User.coding.list.read _) rfl

/-- A store is read back from its text. -/
theorem read?_write (s : Store) : read? s.write = some s := by
  rw [read?, write, read?_pretty (coding.plain s)]
  exact coding.read s

/-- The document of a store, and the text of the document, give back the store with all that is in it. So there is no
other store of that document, and none of that text. -/
theorem document_round_trip (s : Store) :
    ofJson? s.toJson = some s ∧ read? s.write = some s ∧
      ∀ t : Store, (t.toJson = s.toJson → t = s) ∧ (t.write = s.write → t = s) := by
  refine ⟨coding.read s, s.read?_write, fun t => ⟨fun same => ?_, fun same => ?_⟩⟩
  · exact Option.some.inj ((coding.read t).symm.trans (same ▸ coding.read s))
  · exact Option.some.inj (t.read?_write.symm.trans (same ▸ s.read?_write))

end Store

end WorkflowCatalog
