import WorkflowCatalog.Keyed

/-!
# Lists in ascending order of a key

Such a list stands for a finite map: no key occurs twice, and the members come in the order of their keys.
-/
namespace WorkflowCatalog.Ascending

variable {κ α : Type} [LT κ] [DecidableLT κ]

/-- Puts a member in its place; one with the same key gives way to it. -/
def put (key : α → κ) (a : α) : List α → List α
  | [] => [a]
  | b :: bs =>
    if key a < key b then a :: b :: bs
    else if key b < key a then b :: put key a bs
    else a :: bs

/-- Puts a member in its place unless its key is taken. -/
def offer (key : α → κ) (a : α) : List α → List α
  | [] => [a]
  | b :: bs =>
    if key a < key b then a :: b :: bs
    else if key b < key a then b :: offer key a bs
    else b :: bs

/-- The members by key, of several with one key the last. -/
def lastOf (key : α → κ) (xs : List α) : List α := xs.foldl (fun ys a => put key a ys) []

/-- The members by key, of several with one key the first. -/
def firstOf (key : α → κ) (xs : List α) : List α := xs.foldl (fun ys a => offer key a ys) []

def IsAscending (key : α → κ) (xs : List α) : Prop := xs.Pairwise fun a b => key a < key b

@[simp] theorem put_nil (key : α → κ) (a : α) : put key a [] = [a] := rfl

@[simp] theorem offer_nil (key : α → κ) (a : α) : offer key a [] = [a] := rfl

theorem mem_of_mem_put {key : α → κ} {a b : α} {xs : List α} (h : b ∈ put key a xs) : b = a ∨ b ∈ xs := by
  induction xs with
  | nil => simpa using h
  | cons c cs ih =>
    simp only [put] at h
    split at h
    · simpa using h
    · split at h
      · rcases List.mem_cons.1 h with rfl | h
        · simp
        · rcases ih h with rfl | h <;> simp_all
      · rcases List.mem_cons.1 h with rfl | h <;> simp_all

theorem mem_of_mem_offer {key : α → κ} {a b : α} {xs : List α} (h : b ∈ offer key a xs) : b = a ∨ b ∈ xs := by
  induction xs with
  | nil => simpa using h
  | cons c cs ih =>
    simp only [offer] at h
    split at h
    · simpa using h
    · split at h
      · rcases List.mem_cons.1 h with rfl | h
        · simp
        · rcases ih h with rfl | h <;> simp_all
      · simp_all

theorem mem_of_mem_lastOf {key : α → κ} {b : α} {xs : List α} (h : b ∈ lastOf key xs) : b ∈ xs := by
  have kept : ∀ ys, (b ∈ ys → b ∈ xs) → ∀ a ∈ xs, b ∈ put key a ys → b ∈ xs :=
    fun _ ih a ha hb => (mem_of_mem_put hb).elim (fun e => e ▸ ha) ih
  exact List.foldlRecOn xs _ (motive := fun ys => b ∈ ys → b ∈ xs) (fun hb => absurd hb List.not_mem_nil) kept h

/-- A member with a new key joins the others. -/
theorem perm_put [Std.Trichotomous (α := κ) (· < ·)] {key : α → κ} {a : α} {xs : List α} (h : key a ∉ xs.map key) :
    (put key a xs).Perm (a :: xs) := by
  induction xs with
  | nil => exact .refl _
  | cons b bs ih =>
    rw [List.map_cons, List.mem_cons, not_or] at h
    simp only [put]
    split
    · exact .refl _
    · rename_i hab
      split
      · exact ((ih h.2).cons b).trans (.swap a b bs)
      · rename_i hba
        exact absurd (Std.Trichotomous.trichotomous (r := (· < ·)) _ _ hab hba) h.1

section Map

variable {β : Type} {key : α → κ} {label : β → κ} {f : α → β}

theorem map_put (h : ∀ a, label (f a) = key a) (a : α) (xs : List α) :
    (put key a xs).map f = put label (f a) (xs.map f) := by
  induction xs with
  | nil => rfl
  | cons b bs ih =>
    simp only [put, List.map_cons, h]
    split
    · rfl
    · split
      · rw [List.map_cons, ih]
      · rfl

theorem map_offer (h : ∀ a, label (f a) = key a) (a : α) (xs : List α) :
    (offer key a xs).map f = offer label (f a) (xs.map f) := by
  induction xs with
  | nil => rfl
  | cons b bs ih =>
    simp only [offer, List.map_cons, h]
    split
    · rfl
    · split
      · rw [List.map_cons, ih]
      · rfl

/-- What keeps the keys may be done before or after. -/
theorem map_lastOf (h : ∀ a, label (f a) = key a) (xs : List α) : (lastOf key xs).map f = lastOf label (xs.map f) := by
  have step : ∀ ys, (xs.foldl (fun ys a => put key a ys) ys).map f =
      (xs.map f).foldl (fun ys b => put label b ys) (ys.map f) := by
    induction xs with
    | nil => exact fun _ => rfl
    | cons a xs ih =>
      intro ys
      rw [List.foldl_cons, ih, map_put h, List.map_cons, List.foldl_cons]
  exact step []

theorem map_firstOf (h : ∀ a, label (f a) = key a) (xs : List α) : (firstOf key xs).map f = firstOf label (xs.map f) := by
  have step : ∀ ys, (xs.foldl (fun ys a => offer key a ys) ys).map f =
      (xs.map f).foldl (fun ys b => offer label b ys) (ys.map f) := by
    induction xs with
    | nil => exact fun _ => rfl
    | cons a xs ih =>
      intro ys
      rw [List.foldl_cons, ih, map_offer h, List.map_cons, List.foldl_cons]
  exact step []

end Map

section Order

omit [DecidableLT κ] in
theorem IsAscending.lt_head {key : α → κ} {a : α} {xs : List α} (h : IsAscending key (a :: xs)) :
    ∀ b ∈ xs, key a < key b :=
  (List.pairwise_cons.mp h).1

omit [DecidableLT κ] in
theorem ne_of_lt [Std.Irrefl (α := κ) (· < ·)] {k l : κ} (h : k < l) : k ≠ l :=
  fun e => Std.Irrefl.irrefl (r := (· < ·)) l (e ▸ h)

omit [DecidableLT κ] in
theorem IsAscending.nodup_keys [Std.Irrefl (α := κ) (· < ·)] {key : α → κ} {xs : List α} (h : IsAscending key xs) :
    (xs.map key).Nodup :=
  List.pairwise_map.mpr (h.imp ne_of_lt)

variable [Trans (α := κ) (β := κ) (γ := κ) (· < ·) (· < ·) (· < ·)]

theorem isAscending_put [Std.Trichotomous (α := κ) (· < ·)] {key : α → κ} {xs : List α} (h : IsAscending key xs)
    (a : α) : IsAscending key (put key a xs) := by
  induction xs with
  | nil => exact List.pairwise_singleton _ a
  | cons b bs ih =>
    have hb := h.lt_head
    simp only [put]
    split
    · rename_i hab
      refine List.pairwise_cons.mpr ⟨fun c hc => ?_, h⟩
      rcases List.mem_cons.mp hc with rfl | hc
      · exact hab
      · exact Trans.trans hab (hb _ hc)
    · rename_i hab
      split
      · rename_i hba
        refine List.pairwise_cons.mpr ⟨fun c hc => ?_, ih h.of_cons⟩
        rcases mem_of_mem_put hc with rfl | hc
        · exact hba
        · exact hb _ hc
      · rename_i hba
        have e : key a = key b := Std.Trichotomous.trichotomous (r := (· < ·)) _ _ hab hba
        exact List.pairwise_cons.mpr ⟨fun c hc => e ▸ hb _ hc, h.of_cons⟩

theorem isAscending_offer {key : α → κ} {xs : List α} (h : IsAscending key xs) (a : α) :
    IsAscending key (offer key a xs) := by
  induction xs with
  | nil => exact List.pairwise_singleton _ a
  | cons b bs ih =>
    have hb := h.lt_head
    simp only [offer]
    split
    · rename_i hab
      refine List.pairwise_cons.mpr ⟨fun c hc => ?_, h⟩
      rcases List.mem_cons.mp hc with rfl | hc
      · exact hab
      · exact Trans.trans hab (hb _ hc)
    · split
      · rename_i hba
        refine List.pairwise_cons.mpr ⟨fun c hc => ?_, ih h.of_cons⟩
        rcases mem_of_mem_offer hc with rfl | hc
        · exact hba
        · exact hb _ hc
      · exact h

theorem isAscending_lastOf [Std.Trichotomous (α := κ) (· < ·)] (key : α → κ) (xs : List α) :
    IsAscending key (lastOf key xs) :=
  List.foldlRecOn xs (fun ys a => put key a ys) List.Pairwise.nil fun _ h a _ => isAscending_put h a

theorem isAscending_firstOf (key : α → κ) (xs : List α) : IsAscending key (firstOf key xs) :=
  List.foldlRecOn xs (fun ys a => offer key a ys) List.Pairwise.nil fun _ h a _ => isAscending_offer h a

variable [Std.Irrefl (α := κ) (· < ·)] [Std.Trichotomous (α := κ) (· < ·)] [DecidableEq κ]

omit [Trans (α := κ) (β := κ) (γ := κ) (· < ·) (· < ·) (· < ·)] in
theorem find?_put (key : α → κ) (a : α) (xs : List α) (k : κ) :
    (put key a xs).find? (fun x => key x == k) = if key a = k then some a else xs.find? fun x => key x == k := by
  induction xs with
  | nil => by_cases h : key a = k <;> simp [h]
  | cons b bs ih =>
    simp only [put]
    split
    · by_cases h : key a = k <;> simp [h]
    · rename_i hab
      split
      · rename_i hba
        have hb := ne_of_lt hba
        rw [List.find?_cons, List.find?_cons, ih]
        by_cases h : key a = k
        · rw [h] at hb
          simp only [beq_false_of_ne hb, h, if_true]
        · simp [h]
      · rename_i hba
        have e : key a = key b := Std.Trichotomous.trichotomous (r := (· < ·)) _ _ hab hba
        by_cases h : key a = k
        · simp [h]
        · simp [h, e ▸ h]

theorem find?_offer {key : α → κ} {xs : List α} (h : IsAscending key xs) (a : α) (k : κ) :
    (offer key a xs).find? (fun x => key x == k) =
      (xs.find? fun x => key x == k).or (if key a = k then some a else none) := by
  induction xs with
  | nil => by_cases h : key a = k <;> simp [h]
  | cons b bs ih =>
    have hb := h.lt_head
    simp only [offer]
    split
    · rename_i hab
      by_cases hk : key a = k
      · subst hk
        -- All members come after the new one, so none has its key.
        have none_of : (b :: bs).find? (fun x => key x == key a) = none := by
          rw [List.find?_eq_none]
          intro c hc
          have hac : key a < key c := by
            rcases List.mem_cons.mp hc with rfl | hc
            · exact hab
            · exact Trans.trans hab (hb _ hc)
          simpa using (ne_of_lt hac).symm
        rw [none_of]
        simp
      · simp [hk]
    · rename_i hab
      split
      · rename_i hba
        by_cases hk : key b = k <;> simp [hk, ih h.of_cons]
      · rename_i hba
        have e : key a = key b := Std.Trichotomous.trichotomous (r := (· < ·)) _ _ hab hba
        by_cases hk : key b = k <;> simp [hk, e]

omit [Trans (α := κ) (β := κ) (γ := κ) (· < ·) (· < ·) (· < ·)] in
/-- The last of each key is kept. -/
theorem find?_lastOf (key : α → κ) (xs : List α) (k : κ) :
    (lastOf key xs).find? (fun x => key x == k) = xs.reverse.find? fun x => key x == k := by
  have step : ∀ ys, (xs.foldl (fun ys a => put key a ys) ys).find? (fun x => key x == k) =
      (xs.reverse.find? fun x => key x == k).or (ys.find? fun x => key x == k) := by
    induction xs with
    | nil => simp
    | cons a xs ih =>
      intro ys
      rw [List.foldl_cons, ih, find?_put, List.reverse_cons, List.find?_append, Option.or_assoc]
      by_cases h : key a = k <;> simp [h]
  rw [lastOf, step, List.find?_nil, Option.or_none]

/-- The first of each key is kept. -/
theorem find?_firstOf (key : α → κ) (xs : List α) (k : κ) :
    (firstOf key xs).find? (fun x => key x == k) = xs.find? fun x => key x == k := by
  have step : ∀ ys, IsAscending key ys → (xs.foldl (fun ys a => offer key a ys) ys).find? (fun x => key x == k) =
      (ys.find? fun x => key x == k).or (xs.find? fun x => key x == k) := by
    induction xs with
    | nil => simp
    | cons a xs ih =>
      intro ys h
      rw [List.foldl_cons, ih _ (isAscending_offer h a), find?_offer h, Option.or_assoc]
      by_cases hk : key a = k <;> simp [hk]
  rw [firstOf, step [] List.Pairwise.nil, List.find?_nil, Option.none_or]

omit [LT κ] [DecidableLT κ] [Trans (α := κ) (β := κ) (γ := κ) (· < ·) (· < ·) (· < ·)] [Std.Irrefl (α := κ) (· < ·)]
  [Std.Trichotomous (α := κ) (· < ·)] in
theorem mem_keys_iff {key : α → κ} {xs : List α} {k : κ} :
    k ∈ xs.map key ↔ (xs.find? fun x => key x == k).isSome = true := by
  simp only [List.mem_map, List.find?_isSome, beq_iff_eq]

omit [Trans (α := κ) (β := κ) (γ := κ) (· < ·) (· < ·) (· < ·)] in
theorem mem_keys_lastOf {key : α → κ} {xs : List α} {k : κ} : k ∈ (lastOf key xs).map key ↔ k ∈ xs.map key := by
  rw [mem_keys_iff, find?_lastOf, ← mem_keys_iff, List.map_reverse, List.mem_reverse]

theorem mem_keys_firstOf {key : α → κ} {xs : List α} {k : κ} : k ∈ (firstOf key xs).map key ↔ k ∈ xs.map key := by
  rw [mem_keys_iff, find?_firstOf, ← mem_keys_iff]

end Order

section Members

omit [DecidableLT κ]

variable [Std.Irrefl (α := κ) (· < ·)]

/-- A member is what is found for its key. -/
theorem IsAscending.mem_iff_find? [DecidableEq κ] {key : α → κ} {xs : List α} (h : IsAscending key xs) {a : α} :
    a ∈ xs ↔ xs.find? (fun x => key x == key a) = some a := by
  rw [Keyed.find?_eq_some_iff h.nodup_keys]
  exact (and_iff_left rfl).symm

theorem IsAscending.find?_reverse [DecidableEq κ] {key : α → κ} {xs : List α} (h : IsAscending key xs) (k : κ) :
    xs.reverse.find? (fun x => key x == k) = xs.find? fun x => key x == k :=
  Keyed.find?_reverse h.nodup_keys k

variable [Trans (α := κ) (β := κ) (γ := κ) (· < ·) (· < ·) (· < ·)]

/-- Such a list is known by its members. -/
theorem IsAscending.eq_of_mem_iff {key : α → κ} {xs ys : List α} (hx : IsAscending key xs) (hy : IsAscending key ys)
    (same : ∀ a, a ∈ xs ↔ a ∈ ys) : xs = ys := by
  have nodup {zs : List α} (h : IsAscending key zs) : zs.Nodup := h.imp fun lt e => ne_of_lt lt (congrArg key e)
  refine List.Perm.eq_of_pairwise (fun a b _ _ hab hba => ?_) hx hy
    ((List.perm_ext_iff_of_nodup (nodup hx) (nodup hy)).mpr same)
  exact absurd rfl (ne_of_lt (Trans.trans hab hba))

/-- Such a list is known by what is found for each key. -/
theorem IsAscending.eq_of_find? [DecidableEq κ] {key : α → κ} {xs ys : List α} (hx : IsAscending key xs)
    (hy : IsAscending key ys) (same : ∀ k, xs.find? (fun x => key x == k) = ys.find? fun x => key x == k) : xs = ys := by
  refine hx.eq_of_mem_iff hy fun a => ?_
  rw [hx.mem_iff_find?, hy.mem_iff_find?, same]

end Members

section LastOf

variable [Trans (α := κ) (β := κ) (γ := κ) (· < ·) (· < ·) (· < ·)] [Std.Irrefl (α := κ) (· < ·)]
  [Std.Trichotomous (α := κ) (· < ·)] [DecidableEq κ]

theorem lastOf_eq_self {key : α → κ} {xs : List α} (h : IsAscending key xs) : lastOf key xs = xs :=
  (isAscending_lastOf key xs).eq_of_find? h fun k => by rw [find?_lastOf, h.find?_reverse]

/-- It makes no difference if some of the members have been put in order before. -/
theorem lastOf_append_left (key : α → κ) (xs ys : List α) : lastOf key (lastOf key xs ++ ys) = lastOf key (xs ++ ys) := by
  have split (zs : List α) : lastOf key (zs ++ ys) = ys.foldl (fun as a => put key a as) (lastOf key zs) :=
    List.foldl_append
  rw [split, split, lastOf_eq_self (isAscending_lastOf key xs)]

/-- The members are those that no other one with their key follows. -/
theorem mem_lastOf_iff {key : α → κ} {xs : List α} {a : α} :
    a ∈ lastOf key xs ↔ ∃ before after, xs = before ++ a :: after ∧ ∀ b ∈ after, key b ≠ key a := by
  rw [(isAscending_lastOf key xs).mem_iff_find?, find?_lastOf, List.find?_eq_some_iff_append]
  constructor
  · rintro ⟨-, after, before, parts, none_of⟩
    refine ⟨before.reverse, after.reverse, ?_, fun b hb => ?_⟩
    · rw [← List.reverse_reverse xs, parts]
      simp
    · simpa using none_of b (List.mem_reverse.mp hb)
  · rintro ⟨before, after, rfl, none_of⟩
    refine ⟨by simp, after.reverse, before.reverse, by simp, fun b hb => ?_⟩
    simpa using none_of b (List.mem_reverse.mp hb)

/-- What comes again changes nothing. -/
theorem lastOf_lastOf_append (key : α → κ) (xs ys : List α) :
    lastOf key (lastOf key (xs ++ ys) ++ ys) = lastOf key (xs ++ ys) := by
  refine (isAscending_lastOf key _).eq_of_find? (isAscending_lastOf key _) fun k => ?_
  rw [find?_lastOf, List.reverse_append, List.find?_append, (isAscending_lastOf key _).find?_reverse, find?_lastOf,
    List.reverse_append, List.find?_append]
  cases ys.reverse.find? (fun x => key x == k) <;> rfl

end LastOf

end WorkflowCatalog.Ascending
