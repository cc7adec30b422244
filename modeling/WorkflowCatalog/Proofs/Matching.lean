import Mathlib.Data.List.Basic
import Mathlib.Tactic.Tauto
import WorkflowCatalog.Regex.Basic

/-!
# What expressions match

An expression spans a stretch of a text if the stretch is what its parts describe, put together. A search keeps the
positions reached so far, and ends a repetition without bound after as many rounds as the text has symbols. It still
reaches every position that some number of rounds does, since rounds over nothing can be left out.
-/
namespace WorkflowCatalog.Regex

/-- That many steps, one after the other. -/
def Rounds (step : Nat → Nat → Prop) : Nat → Nat → Nat → Prop
  | 0, i, j => j = i
  | n + 1, i, j => ∃ k, step i k ∧ Rounds step n k j

/-- The expression describes what stands between two positions of the text. -/
def Spans (text : List Nat) : Regex → Nat → Nat → Prop
  | empty, i, j => j = i
  | one s, i, j => j = i + 1 ∧ ∃ n, text[i]? = some n ∧ s.contains n = true
  | place p, i, j => j = i ∧ p.holds (symbolBefore text i) text[i]? = true
  | both a b, i, j => ∃ k, a.Spans text i k ∧ b.Spans text k j
  | either a b, i, j => a.Spans text i j ∨ b.Spans text i j
  | times least most a, i, j => ∃ n, least ≤ n ∧ (∀ m, most = some m → n ≤ max least m) ∧ Rounds (a.Spans text) n i j

/-- The expression describes the whole text. -/
def Describes (r : Regex) (text : List Nat) : Prop := r.Spans text 0 text.length

/-! ## Rounds -/

section Rounds

variable {step : Nat → Nat → Prop} {top : Nat}

theorem rounds_add (n m i j : Nat) :
    Rounds step (n + m) i j ↔ ∃ k, Rounds step n i k ∧ Rounds step m k j := by
  induction n generalizing i with
  | zero => simp [Rounds]
  | succ n ih =>
    simp only [Nat.succ_add, Rounds, ih]
    constructor
    · rintro ⟨k, first, l, more, last⟩
      exact ⟨l, ⟨k, first, more⟩, last⟩
    · rintro ⟨l, ⟨k, first, more⟩, last⟩
      exact ⟨k, first, l, more, last⟩

/-- Steps lead forward and not beyond the top. -/
def IsForward (top : Nat) (step : Nat → Nat → Prop) : Prop := ∀ i j, step i j → i ≤ top → i ≤ j ∧ j ≤ top

theorem IsForward.rounds (forward : IsForward top step) (n : Nat) : IsForward top (Rounds step n) := by
  induction n with
  | zero =>
    rintro i j rfl inside
    exact ⟨Nat.le_refl _, inside⟩
  | succ n ih =>
    rintro i j ⟨k, first, more⟩ inside
    obtain ⟨upK, insideK⟩ := forward i k first inside
    obtain ⟨upJ, insideJ⟩ := ih k j more insideK
    exact ⟨Nat.le_trans upK upJ, insideJ⟩

/-- Rounds that stay where they are can be left out, and every other one moves forward. -/
theorem IsForward.exists_few (forward : IsForward top step) (n : Nat) {i j : Nat} (rounds : Rounds step n i j)
    (inside : i ≤ top) : ∃ m, m ≤ n ∧ m ≤ j - i ∧ Rounds step m i j := by
  induction n generalizing i with
  | zero => exact ⟨0, Nat.le_refl _, Nat.zero_le _, rounds⟩
  | succ n ih =>
    obtain ⟨k, first, more⟩ := rounds
    obtain ⟨up, insideK⟩ := forward i k first inside
    obtain ⟨m, few, moving, kept⟩ := ih more insideK
    rcases Nat.eq_or_lt_of_le up with rfl | further
    · exact ⟨m, by omega, moving, kept⟩
    · have onward := (forward.rounds m k j kept insideK).1
      exact ⟨m + 1, by omega, by omega, k, first, kept⟩

end Rounds

/-! ## Positions reached -/

section Reached

variable {next : List Nat → List Nat} {step : Nat → Nat → Prop} {top : Nat}

/-- From positions within the text, those of one step more. -/
def Follows (top : Nat) (next : List Nat → List Nat) (step : Nat → Nat → Prop) : Prop :=
  ∀ ps, (∀ i ∈ ps, i ≤ top) → ∀ j, j ∈ next ps ↔ ∃ i ∈ ps, step i j

theorem Follows.inside (follows : Follows top next step) (forward : IsForward top step) {ps : List Nat}
    (inside : ∀ i ∈ ps, i ≤ top) : ∀ j ∈ next ps, j ≤ top := by
  intro j reached
  obtain ⟨i, member, here⟩ := (follows ps inside j).1 reached
  exact (forward i j here (inside i member)).2

theorem Follows.exactly (follows : Follows top next step) (forward : IsForward top step) (n : Nat) :
    Follows top (exactly next n) (Rounds step n) := by
  induction n with
  | zero => simp [Follows, Regex.exactly, Rounds]
  | succ n ih =>
    intro ps inside j
    have onward := ih (next ps) (follows.inside forward inside) j
    cases ps with
    | nil => simp [Regex.exactly]
    | cons p ps =>
      simp only [Regex.exactly, List.isEmpty_cons, Bool.false_eq_true, if_false, onward, Rounds]
      constructor
      · rintro ⟨k, reached, more⟩
        obtain ⟨i, member, first⟩ := (follows _ inside k).1 reached
        exact ⟨i, member, k, first, more⟩
      · rintro ⟨i, member, k, first, more⟩
        exact ⟨k, (follows _ inside k).2 ⟨i, member, first⟩, more⟩

theorem rounds_stay {reached : List Nat} (closed : ∀ i ∈ reached, ∀ j, step i j → j ∈ reached) (n : Nat) {i j : Nat}
    (member : i ∈ reached) (rounds : Rounds step n i j) : j ∈ reached := by
  induction n generalizing i with
  | zero => exact rounds ▸ member
  | succ n ih =>
    obtain ⟨k, first, more⟩ := rounds
    exact ih (closed i member k first) more

/-- Steps that do not start from the positions reached last lead nowhere new. -/
theorem Follows.mem_upTo (follows : Follows top next step) (forward : IsForward top step) (n : Nat)
    {reached latest : List Nat} (inside : ∀ i ∈ reached, i ≤ top) (among : latest ⊆ reached)
    (old : ∀ i ∈ reached, i ∉ latest → ∀ j, step i j → j ∈ reached) (j : Nat) :
    j ∈ upTo next n reached latest ↔ ∃ i ∈ reached, ∃ m ≤ n, Rounds step m i j := by
  induction n generalizing reached latest with
  | zero => simp [upTo, Rounds]
  | succ n ih =>
    have mem_new : ∀ k, k ∈ (next latest).filter (fun q => !reached.contains q) ↔
        (∃ i ∈ latest, step i k) ∧ k ∉ reached := by
      intro k
      rw [List.mem_filter, follows latest fun i member => inside i (among member)]
      simp
    have onward : ∀ i ∈ reached, ∀ k, step i k → k ∈ reached ∨
        k ∈ (next latest).filter (fun q => !reached.contains q) := by
      intro i member k here
      by_cases known : k ∈ reached
      · exact .inl known
      · by_cases last : i ∈ latest
        · exact .inr ((mem_new k).2 ⟨⟨i, last, here⟩, known⟩)
        · exact .inl (old i member last k here)
    simp only [upTo]
    generalize (next latest).filter (fun q => !reached.contains q) = new at mem_new onward
    cases new with
    | nil =>
      have closed : ∀ i ∈ reached, ∀ k, step i k → k ∈ reached := fun i member k here => by
        simpa using onward i member k here
      simp only [List.isEmpty_nil, if_true]
      exact ⟨fun member => ⟨j, member, 0, Nat.zero_le _, rfl⟩,
        fun ⟨_, member, m, _, rounds⟩ => rounds_stay closed m member rounds⟩
    | cons q qs =>
      simp only [List.isEmpty_cons, Bool.false_eq_true, if_false]
      rw [@ih (reached ++ q :: qs) (q :: qs)]
      · constructor
        · rintro ⟨i, member, m, few, rounds⟩
          rcases List.mem_append.1 member with known | fresh
          · exact ⟨i, known, m, by omega, rounds⟩
          · obtain ⟨⟨k, last, here⟩, -⟩ := (mem_new i).1 fresh
            exact ⟨k, among last, m + 1, by omega, i, here, rounds⟩
        · rintro ⟨i, member, m, few, rounds⟩
          cases m with
          | zero => exact ⟨i, List.mem_append_left _ member, 0, Nat.zero_le _, rounds⟩
          | succ m =>
            obtain ⟨k, first, more⟩ := rounds
            exact ⟨k, List.mem_append.2 (onward i member k first), m, by omega, more⟩
      · intro i member
        rcases List.mem_append.1 member with known | fresh
        · exact inside i known
        · obtain ⟨⟨k, last, here⟩, -⟩ := (mem_new i).1 fresh
          exact (forward k i here (inside k (among last))).2
      · exact List.subset_append_right _ _
      · intro i member stale k here
        rcases List.mem_append.1 member with known | fresh
        · exact List.mem_append.2 (onward i known k here)
        · exact absurd fresh stale

/-- A repetition without bound needs no more rounds than the text has symbols. -/
theorem Follows.times (follows : Follows top next step) (forward : IsForward top step) (least : Nat)
    (most : Option Nat) :
    Follows top
      (fun ps => upTo next (match most with | some m => m - least | none => top + 1)
        (Regex.exactly next least ps) (Regex.exactly next least ps))
      (fun i j => ∃ n, least ≤ n ∧ (∀ m, most = some m → n ≤ max least m) ∧ Rounds step n i j) := by
  intro ps inside j
  have first := follows.exactly forward least
  have insideFirst := first.inside (forward.rounds least) inside
  rw [follows.mem_upTo forward _ insideFirst (List.Subset.refl _) fun i member stale => absurd member stale]
  constructor
  · rintro ⟨k, reached, m, few, more⟩
    obtain ⟨i, member, start⟩ := (first ps inside k).1 reached
    refine ⟨i, member, least + m, Nat.le_add_right _ _, ?_, (rounds_add _ _ _ _).2 ⟨k, start, more⟩⟩
    rintro bound rfl
    simp only at few
    omega
  · rintro ⟨i, member, n, enough, bounded, rounds⟩
    obtain ⟨rest, rfl⟩ := Nat.exists_eq_add_of_le enough
    obtain ⟨k, start, more⟩ := (rounds_add _ _ _ _).1 rounds
    have reached := (first ps inside k).2 ⟨i, member, start⟩
    refine ⟨k, reached, ?_⟩
    cases most with
    | some bound => exact ⟨rest, by have := bounded bound rfl; simp only; omega, more⟩
    | none =>
      obtain ⟨m, -, few, kept⟩ := forward.exists_few rest more (insideFirst k reached)
      have := (forward.rounds rest k j more (insideFirst k reached)).2
      exact ⟨m, by simp only; omega, kept⟩

end Reached

/-! ## Searches -/

variable {text : List Nat}

theorem mem_merge {ps qs : List Nat} {j : Nat} : j ∈ merge ps qs ↔ j ∈ ps ∨ j ∈ qs := by
  simp only [merge, List.mem_append, List.mem_filter, List.contains_eq_mem, Bool.not_eq_true',
    decide_eq_false_iff_not]
  tauto

theorem stepOver_eq_some_iff {s : Symbols} {i j : Nat} :
    stepOver s text i = some j ↔ (one s).Spans text i j := by
  unfold stepOver Spans
  cases text[i]? with
  | none => simp
  | some n =>
    by_cases within : s.contains n = true
    · simp [within, eq_comm (a := j)]
    · simp [within]

theorem isForward_spans (r : Regex) : IsForward text.length (r.Spans text) := by
  induction r with
  | empty =>
    rintro i j rfl inside
    exact ⟨Nat.le_refl _, inside⟩
  | one s =>
    rintro i j ⟨rfl, n, found, -⟩ -
    obtain ⟨below, -⟩ := List.getElem?_eq_some_iff.1 found
    exact ⟨Nat.le_succ i, below⟩
  | place p =>
    rintro i j ⟨rfl, -⟩ inside
    exact ⟨Nat.le_refl _, inside⟩
  | both a b forwardA forwardB =>
    rintro i j ⟨k, first, last⟩ inside
    obtain ⟨upK, insideK⟩ := forwardA i k first inside
    obtain ⟨upJ, insideJ⟩ := forwardB k j last insideK
    exact ⟨Nat.le_trans upK upJ, insideJ⟩
  | either a b forwardA forwardB =>
    rintro i j (left | right) inside
    · exact forwardA i j left inside
    · exact forwardB i j right inside
  | times least most a forward =>
    rintro i j ⟨n, -, -, rounds⟩ inside
    exact forward.rounds n i j rounds inside

/-- Matches that start at one of the positions end where the expression spans what is between. -/
theorem follows_ends (r : Regex) : Follows text.length (r.ends text) (r.Spans text) := by
  induction r with
  | empty => simp [Follows, ends, Spans]
  | one s => simp [Follows, ends, stepOver_eq_some_iff]
  | place p =>
    intro ps _ j
    simp only [ends, List.mem_filter, Spans]
    constructor
    · rintro ⟨member, here⟩
      exact ⟨j, member, rfl, here⟩
    · rintro ⟨i, member, rfl, here⟩
      exact ⟨member, here⟩
  | both a b followsA followsB =>
    intro ps inside j
    simp only [ends, Spans, followsB _ (followsA.inside (isForward_spans a) inside), followsA ps inside]
    constructor
    · rintro ⟨k, ⟨i, member, first⟩, last⟩
      exact ⟨i, member, k, first, last⟩
    · rintro ⟨i, member, k, first, last⟩
      exact ⟨k, ⟨i, member, first⟩, last⟩
  | either a b followsA followsB =>
    intro ps inside j
    simp only [ends, Spans, mem_merge, followsA ps inside, followsB ps inside, ← exists_or, ← and_or_left]
  | times least most a follows => exact follows.times (isForward_spans a) least most

theorem search_iff (r : Regex) : r.search text = true ↔ ∃ i j, i ≤ text.length ∧ r.Spans text i j := by
  have inside : ∀ i ∈ List.range (text.length + 1), i ≤ text.length := fun i member => by
    have := List.mem_range.1 member
    omega
  have member : r.search text = true ↔ ∃ j, j ∈ r.ends text (List.range (text.length + 1)) := by
    rw [search, Bool.not_eq_true', List.isEmpty_eq_false_iff_exists_mem]
  simp only [member, follows_ends r _ inside, List.mem_range, Nat.lt_succ_iff]
  exact exists_comm

theorem holds_textStart {i : Nat} (inside : i ≤ text.length) :
    Place.textStart.holds (symbolBefore text i) text[i]? = true ↔ i = 0 := by
  unfold symbolBefore
  by_cases start : i = 0
  · simp [start, Place.holds]
  · have below : i - 1 < text.length := by omega
    simp [start, Place.holds, List.getElem?_eq_getElem below]

theorem holds_textEnd {i : Nat} : Place.textEnd.holds (symbolBefore text i) text[i]? = true ↔ text.length ≤ i := by
  simp [Place.holds]

/-- Between the marks for the start and the end, a search finds only the whole text. -/
theorem search_between_iff (r : Regex) :
    (both (place .textStart) (both r (place .textEnd))).search text = true ↔ r.Describes text := by
  rw [search_iff, Describes]
  constructor
  · rintro ⟨i, j, inside, k, ⟨rfl, start⟩, l, within, rfl, finish⟩
    obtain rfl := (holds_textStart inside).1 start
    obtain ⟨-, insideL⟩ := isForward_spans r _ _ within inside
    rwa [← Nat.le_antisymm insideL (holds_textEnd.1 finish)]
  · intro within
    exact ⟨0, text.length, Nat.zero_le _, 0, ⟨rfl, (holds_textStart (Nat.zero_le _)).2 rfl⟩, text.length, within,
      rfl, holds_textEnd.2 (Nat.le_refl _)⟩

end WorkflowCatalog.Regex
