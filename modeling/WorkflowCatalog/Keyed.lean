/-!
# Lists with a key for each member

Such a list keeps its members in the order in which their keys first came.
-/
namespace WorkflowCatalog.Keyed

variable {κ α : Type} [DecidableEq κ]

/-- Replaces the first member of the same key, or adds one at the end. -/
def upsert (key : α → κ) (a : α) : List α → List α
  | [] => [a]
  | b :: bs => if key b = key a then a :: bs else b :: upsert key a bs

@[simp] theorem upsert_nil (key : α → κ) (a : α) : upsert key a [] = [a] := rfl

theorem mem_upsert_self (key : α → κ) (a : α) (xs : List α) : a ∈ upsert key a xs := by
  induction xs with
  | nil => simp
  | cons b bs ih =>
    simp only [upsert]
    split
    · simp
    · exact List.mem_cons_of_mem b ih

theorem keys_upsert (key : α → κ) (a : α) (xs : List α) :
    (upsert key a xs).map key = if key a ∈ xs.map key then xs.map key else xs.map key ++ [key a] := by
  induction xs with
  | nil => simp
  | cons b bs ih =>
    by_cases h : key b = key a
    · simp [upsert, h]
    · have h' : ¬ key a = key b := fun e => h e.symm
      simp only [upsert, h, if_false, List.map_cons, ih, List.mem_cons, h', false_or]
      split <;> simp

theorem nodup_keys_upsert {key : α → κ} {xs : List α} (h : (xs.map key).Nodup) (a : α) :
    ((upsert key a xs).map key).Nodup := by
  rw [keys_upsert]
  split
  · exact h
  · rename_i ha
    exact List.nodup_append.mpr ⟨h, by simp, by grind⟩

theorem mem_of_mem_upsert {key : α → κ} {a b : α} {xs : List α} (h : b ∈ upsert key a xs) : b = a ∨ b ∈ xs := by
  induction xs with
  | nil => simpa using h
  | cons c cs ih =>
    simp only [upsert] at h
    split at h
    · exact (List.mem_cons.mp h).imp_right (List.mem_cons_of_mem c)
    · rcases List.mem_cons.mp h with rfl | h
      · simp
      · exact (ih h).imp_right (List.mem_cons_of_mem c)

/-- The members of other keys stay. -/
theorem mem_upsert_of_mem {key : α → κ} {a b : α} {xs : List α} (h : b ∈ xs) (other : key b ≠ key a) :
    b ∈ upsert key a xs := by
  induction xs with
  | nil => exact absurd h List.not_mem_nil
  | cons c cs ih =>
    simp only [upsert]
    split
    · rename_i same
      obtain rfl | h := List.mem_cons.mp h
      · exact absurd same other
      · exact List.mem_cons_of_mem a h
    · obtain rfl | h := List.mem_cons.mp h
      · exact List.mem_cons_self
      · exact List.mem_cons_of_mem c (ih h)

theorem find?_upsert (key : α → κ) (a : α) (xs : List α) (k : κ) :
    (upsert key a xs).find? (fun x => key x == k) =
      if key a = k then some a else xs.find? fun x => key x == k := by
  induction xs with
  | nil => by_cases h : key a = k <;> simp [h]
  | cons b bs ih =>
    by_cases hb : key b = key a <;> by_cases ha : key a = k <;> by_cases hk : key b = k <;>
      simp_all [upsert]

/-- What keeps the keys may be done before or after. -/
theorem map_upsert {β : Type} {key : α → κ} {label : β → κ} {f : α → β} (h : ∀ a, label (f a) = key a) (a : α)
    (xs : List α) : (upsert key a xs).map f = upsert label (f a) (xs.map f) := by
  induction xs with
  | nil => rfl
  | cons b bs ih =>
    simp only [upsert, List.map_cons, h]
    split
    · rfl
    · rw [List.map_cons, ih]

/-- Keys that tell the new member from the others alike put it in the same place. -/
theorem upsert_congr {μ : Type} [DecidableEq μ] {key : α → κ} {label : α → μ} {a : α} {xs : List α}
    (h : ∀ b ∈ xs, key b = key a ↔ label b = label a) : upsert key a xs = upsert label a xs := by
  induction xs with
  | nil => rfl
  | cons b bs ih =>
    rw [List.forall_mem_cons] at h
    by_cases hb : key b = key a
    · simp only [upsert, hb, h.1.mp hb, if_true]
    · simp only [upsert, hb, mt h.1.mpr hb, if_false, ih h.2]

/-- Of two members with one key the later one stays. -/
theorem upsert_upsert {key : α → κ} {a b : α} (h : key a = key b) (xs : List α) :
    upsert key b (upsert key a xs) = upsert key b xs := by
  induction xs with
  | nil => simp [upsert, h]
  | cons c cs ih =>
    by_cases hc : key c = key b
    · simp [upsert, h, hc]
    · simp [upsert, h, hc, ih]

/-- A member that is found for its own key is replaced by itself. -/
theorem upsert_of_find? {key : α → κ} {a : α} {xs : List α} (h : xs.find? (fun x => key x == key a) = some a) :
    upsert key a xs = xs := by
  induction xs with
  | nil => exact nomatch h
  | cons b bs ih =>
    by_cases hb : key b = key a
    · rw [List.find?_cons_of_pos (by simpa using hb), Option.some.injEq] at h
      rw [upsert, if_pos hb, h]
    · rw [List.find?_cons_of_neg (by simpa using hb)] at h
      rw [upsert, if_neg hb, ih h]

omit [DecidableEq κ] in
theorem find?_eq_some_iff [BEq κ] [LawfulBEq κ] {key : α → κ} {xs : List α} (h : (xs.map key).Nodup) {k : κ} {a : α} :
    xs.find? (fun x => key x == k) = some a ↔ a ∈ xs ∧ key a = k := by
  induction xs with
  | nil => simp
  | cons b bs ih =>
    rw [List.map_cons, List.nodup_cons] at h
    by_cases hb : key b = k
    · have : ∀ c ∈ bs, key c ≠ k := fun c hc e => h.1 (List.mem_map.mpr ⟨c, hc, e.trans hb.symm⟩)
      simp only [List.find?_cons, hb, beq_self_eq_true, Option.some.injEq, List.mem_cons]
      grind
    · simp only [List.find?_cons, beq_false_of_ne hb, ih h.2, List.mem_cons]
      grind

omit [DecidableEq κ] in
/-- Where no key occurs twice, it is of no matter from which end one looks for a key. -/
theorem find?_reverse [BEq κ] [LawfulBEq κ] {key : α → κ} {xs : List α} (h : (xs.map key).Nodup) (k : κ) :
    xs.reverse.find? (fun x => key x == k) = xs.find? fun x => key x == k := by
  have distinct : (xs.reverse.map key).Nodup := by
    rw [List.map_reverse]
    exact List.pairwise_reverse.mpr (h.imp Ne.symm)
  ext a
  rw [find?_eq_some_iff distinct, find?_eq_some_iff h, List.mem_reverse]

omit [DecidableEq κ] in
/-- The keys of the members that pass a test. -/
theorem mem_map_filter [BEq κ] [LawfulBEq κ] {key : α → κ} {xs : List α} (h : (xs.map key).Nodup) {p : α → Bool}
    {k : κ} : k ∈ (xs.filter p).map key ↔ ∃ a, xs.find? (fun x => key x == k) = some a ∧ p a = true := by
  simp only [List.mem_map, List.mem_filter, find?_eq_some_iff h]
  constructor
  · rintro ⟨a, ⟨member, passed⟩, name⟩
    exact ⟨a, ⟨member, name⟩, passed⟩
  · rintro ⟨a, ⟨member, name⟩, passed⟩
    exact ⟨a, ⟨member, passed⟩, name⟩

omit [DecidableEq κ] in
/-- Where no key occurs twice, what is found for a key is the only member that a further test may find. -/
theorem find?_and [BEq κ] [LawfulBEq κ] {key : α → κ} {xs : List α} (h : (xs.map key).Nodup) (k : κ) (p : α → Bool) :
    xs.find? (fun x => key x == k && p x) = (xs.find? fun x => key x == k).filter p := by
  induction xs with
  | nil => rfl
  | cons a xs ih =>
    rw [List.map_cons, List.nodup_cons] at h
    by_cases ha : key a = k
    · have none_left : xs.find? (fun x => key x == k && p x) = none := by
        rw [List.find?_eq_none]
        intro x hx found
        rw [Bool.and_eq_true, beq_iff_eq] at found
        exact h.1 (List.mem_map.mpr ⟨x, hx, found.1.trans ha.symm⟩)
      cases hp : p a <;> simp [ha, hp, none_left, Option.filter]
    · simp [ha, ih h.2]

omit [DecidableEq κ] in
/-- Where no key occurs twice, a test for a key is passed once at most. -/
theorem map_const_filter [BEq κ] [LawfulBEq κ] {β : Type} {key : α → κ} {xs : List α} (h : (xs.map key).Nodup) (k : κ)
    (p : α → Bool) (b : β) :
    (xs.filter fun x => key x == k && p x).map (fun _ => b) = if xs.any fun x => key x == k && p x then [b] else [] := by
  induction xs with
  | nil => simp
  | cons a xs ih =>
    rw [List.map_cons, List.nodup_cons] at h
    rw [List.filter_cons, List.any_cons]
    by_cases ha : key a = k
    · have none_left : ∀ x ∈ xs, ¬ (key x == k && p x) = true := fun x hx hk => by
        rw [Bool.and_eq_true, beq_iff_eq] at hk
        exact h.1 (List.mem_map.mpr ⟨x, hx, hk.1.trans ha.symm⟩)
      rw [List.filter_eq_nil_iff.mpr none_left, List.any_eq_false.mpr none_left]
      cases hp : p a <;> simp [ha]
    · simp only [beq_false_of_ne ha, Bool.false_and, Bool.false_eq_true, if_false, Bool.false_or]
      exact ih h.2

end WorkflowCatalog.Keyed
