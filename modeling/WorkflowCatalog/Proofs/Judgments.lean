import Mathlib.Data.List.Induction
import WorkflowCatalog.Validation

/-!
# Collecting judgments

However passes and failures follow one another, what has been collected says of each category that it was judged, whether
a failure was among the judgments, and the messages of all failures in their order. Of judgments that are put together
the last one of each category is kept, so they may be put together in parts.
-/
namespace WorkflowCatalog.Validation

/-- One judgment that is to be collected. -/
inductive Remark
  | pass (c : Category)
  | fail (c : Category) (message : String)
deriving DecidableEq, Repr

namespace Remark

def category : Remark → Category
  | pass c => c
  | fail c _ => c

/-- The message of a failure in the category. -/
def failure? (c : Category) : Remark → Option String
  | pass _ => none
  | fail d message => if d = c then some message else none

end Remark

def add (vs : List Validation) : Remark → List Validation
  | .pass c => pass vs c
  | .fail c message => fail vs c message

/-- What is left of a sequence of remarks. -/
def collected (rs : List Remark) : List Validation := rs.foldl add []

/-- The messages of all failures in the category, in their order. -/
def failures (rs : List Remark) (c : Category) : List String := rs.filterMap (Remark.failure? c)

/-- The list has one judgment for each category that is remarked on, in the order of categories. It is a failure if one
of the remarks is, and tells the messages of all failures. -/
structure SumsUp (rs : List Remark) (vs : List Validation) : Prop where
  ascending : Ascending.IsAscending rank vs
  categories : ∀ c, (∃ v ∈ vs, v.category = c) ↔ ∃ r ∈ rs, r.category = c
  invalid : ∀ v ∈ vs, v.isValid = false ↔ ∃ message, .fail v.category message ∈ rs
  message : ∀ v ∈ vs, v.message = "; ".intercalate (failures rs v.category)
  silent : ∀ v ∈ vs, v.isValid = true → v.message = ""

/-! ## One remark -/

/-- What the remarks on a category come to, if there are any. -/
def summary? (rs : List Remark) (c : Category) : Option Validation :=
  if c ∈ rs.map Remark.category then some ⟨c, (failures rs c).isEmpty, "; ".intercalate (failures rs c)⟩ else none

theorem failures_concat (rs : List Remark) (r : Remark) (c : Category) :
    failures (rs ++ [r]) c = failures rs c ++ (r.failure? c).toList := by
  cases found : r.failure? c <;> simp [failures, found]

theorem mem_failures_iff {rs : List Remark} {c : Category} {message : String} :
    message ∈ failures rs c ↔ .fail c message ∈ rs := by
  rw [failures, List.mem_filterMap]
  constructor
  · rintro ⟨r, hr, found⟩
    cases r with
    | pass d => exact nomatch found
    | fail d m =>
      rw [Remark.failure?, Option.ite_none_right_eq_some] at found
      obtain ⟨rfl, same⟩ := found
      rw [← Option.some.inj same]
      exact hr
  · exact fun hr => ⟨_, hr, if_pos rfl⟩

/-- There is no failure where there is no remark. -/
theorem failures_eq_nil {rs : List Remark} {c : Category} (h : c ∉ rs.map Remark.category) : failures rs c = [] := by
  rw [List.eq_nil_iff_forall_not_mem]
  intro message hm
  exact h (List.mem_map.mpr ⟨_, mem_failures_iff.mp hm, rfl⟩)

/-- Remarks on other categories change nothing. -/
theorem summary?_concat_of_ne {r : Remark} {c : Category} (h : r.category ≠ c) (rs : List Remark) :
    summary? (rs ++ [r]) c = summary? rs c := by
  have unheard : r.failure? c = none := by
    cases r with
    | pass d => rfl
    | fail d m => exact if_neg h
  have same : c ∈ (rs ++ [r]).map Remark.category ↔ c ∈ rs.map Remark.category := by simp [Ne.symm h]
  simp only [summary?, failures_concat, unheard, Option.toList_none, List.append_nil, same]

theorem summary?_concat_self (rs : List Remark) (r : Remark) :
    summary? (rs ++ [r]) r.category =
      some ⟨r.category, (failures (rs ++ [r]) r.category).isEmpty, "; ".intercalate (failures (rs ++ [r]) r.category)⟩ :=
  if_pos (by simp)

/-- What is found of each category in the list is what the remarks on it come to. -/
structure Tells (rs : List Remark) (vs : List Validation) : Prop where
  ascending : Ascending.IsAscending rank vs
  found : ∀ c : Category, vs.find? (fun v => v.rank == c.rank) = summary? rs c

/-- One more remark changes what is found of its category only. -/
theorem Tells.next {rs : List Remark} {vs vs' : List Validation} (h : Tells rs vs) (r : Remark)
    (ascending : Ascending.IsAscending rank vs')
    (same : vs'.find? (fun v => v.rank == r.category.rank) = summary? (rs ++ [r]) r.category)
    (others : ∀ c : Category, r.category ≠ c →
      vs'.find? (fun v => v.rank == c.rank) = vs.find? fun v => v.rank == c.rank) : Tells (rs ++ [r]) vs' := by
  refine ⟨ascending, fun c => ?_⟩
  by_cases here : r.category = c
  · exact here ▸ same
  · rw [others c here, h.found, summary?_concat_of_ne here]

theorem Tells.pass {rs : List Remark} {vs : List Validation} (h : Tells rs vs) (c : Category) :
    Tells (rs ++ [.pass c]) (Validation.pass vs c) := by
  have place (k : Category) : (valid c).rank = k.rank ↔ c = k := Category.rank_inj
  have search (k : Category) : (Validation.pass vs c).find? (fun v => v.rank == k.rank) =
      (summary? rs k).or (if c = k then some (valid c) else none) := by
    rw [Validation.pass, Ascending.find?_offer h.ascending, h.found]
    simp only [place]
  apply h.next (.pass c) (isAscending_pass h.ascending c)
  · have silent : failures (rs ++ [.pass c]) c = failures rs c := by simp [failures_concat, Remark.failure?]
    rw [summary?_concat_self, Remark.category, silent, search, if_pos rfl]
    by_cases known : c ∈ rs.map Remark.category
    · rw [summary?, if_pos known, Option.some_or]
    · rw [summary?, if_neg known, Option.none_or, failures_eq_nil known]
      rfl
  · intro k (other : c ≠ k)
    rw [search, if_neg other, Option.or_none, h.found]

/-- The message of a failure is put behind those of the failures before it, and a pass is forgotten. -/
theorem Tells.fail_eq {rs : List Remark} {vs : List Validation} (h : Tells rs vs) (c : Category) (message : String) :
    Validation.fail vs c message =
      Ascending.put rank (invalid c ("; ".intercalate (failures rs c ++ [message]))) vs := by
  have found : vs.find? (fun v => v.category == c && !v.isValid) = (summary? rs c).filter fun v => !v.isValid := by
    have keyed : (fun v : Validation => v.category == c && !v.isValid) = fun v => v.rank == c.rank && !v.isValid := by
      funext v
      rw [Bool.eq_iff_iff]
      simp [rank_eq_iff]
    rw [keyed, Keyed.find?_and h.ascending.nodup_keys, h.found]
  rw [Validation.fail, found]
  cases earlier : failures rs c with
  | nil =>
    have unfound : ((summary? rs c).filter fun v => !v.isValid) = none := by
      rw [summary?, earlier]
      split <;> rfl
    rw [unfound, List.nil_append, String.intercalate_singleton]
  | cons first others =>
    have known : c ∈ rs.map Remark.category := by
      by_contra unknown
      exact nomatch earlier.symm.trans (failures_eq_nil unknown)
    have failed : ((summary? rs c).filter fun v => !v.isValid) =
        some (invalid c ("; ".intercalate (first :: others))) := by
      rw [summary?, if_pos known, earlier]
      rfl
    rw [failed, String.intercalate_append_of_ne_nil (List.cons_ne_nil _ _) (List.cons_ne_nil _ _),
      String.intercalate_singleton]
    rfl

theorem Tells.fail {rs : List Remark} {vs : List Validation} (h : Tells rs vs) (c : Category) (message : String) :
    Tells (rs ++ [.fail c message]) (Validation.fail vs c message) := by
  have place (m : String) (k : Category) : (invalid c m).rank = k.rank ↔ c = k := Category.rank_inj
  have search (k : Category) : (Validation.fail vs c message).find? (fun v => v.rank == k.rank) =
      if c = k then some (invalid c ("; ".intercalate (failures rs c ++ [message])))
      else vs.find? fun v => v.rank == k.rank := by
    rw [h.fail_eq, Ascending.find?_put]
    simp only [place]
  apply h.next (.fail c message) (isAscending_fail h.ascending c message)
  · have heard : failures (rs ++ [.fail c message]) c = failures rs c ++ [message] := by
      simp [failures_concat, Remark.failure?]
    rw [summary?_concat_self, Remark.category, heard, search, if_pos rfl]
    simp [invalid]
  · intro k (other : c ≠ k)
    rw [search, if_neg other]

/-! ## A sequence of remarks -/

theorem tells_collected (rs : List Remark) : Tells rs (collected rs) := by
  induction rs using List.reverseRecOn with
  | nil => exact ⟨List.Pairwise.nil, fun _ => rfl⟩
  | append_singleton rs r ih =>
    rw [collected, List.foldl_append]
    cases r with
    | pass c => exact ih.pass c
    | fail c message => exact ih.fail c message

theorem Tells.mem_iff {rs : List Remark} {vs : List Validation} (h : Tells rs vs) {v : Validation} :
    v ∈ vs ↔ summary? rs v.category = some v := by
  rw [h.ascending.mem_iff_find?, ← h.found]
  rfl

theorem Tells.sumsUp {rs : List Remark} {vs : List Validation} (h : Tells rs vs) : SumsUp rs vs := by
  have parts {v : Validation} (hv : v ∈ vs) : v.category ∈ rs.map Remark.category ∧
      v.isValid = (failures rs v.category).isEmpty ∧ v.message = "; ".intercalate (failures rs v.category) := by
    have judged := h.mem_iff.mp hv
    rw [summary?, Option.ite_none_right_eq_some, Option.some.injEq] at judged
    obtain ⟨known, same⟩ := judged
    exact ⟨known, congrArg isValid same.symm, congrArg Validation.message same.symm⟩
  constructor
  case ascending => exact h.ascending
  case categories =>
    intro c
    rw [← List.mem_map, ← List.mem_map]
    constructor
    · intro hc
      obtain ⟨v, hv, rfl⟩ := List.mem_map.mp hc
      exact (parts hv).1
    · intro known
      have member : ⟨c, (failures rs c).isEmpty, "; ".intercalate (failures rs c)⟩ ∈ vs := h.mem_iff.mpr (if_pos known)
      exact List.mem_map.mpr ⟨_, member, rfl⟩
  case invalid =>
    intro v hv
    rw [(parts hv).2.1, List.isEmpty_eq_false_iff_exists_mem]
    exact exists_congr fun message => mem_failures_iff
  case message => exact fun v hv => (parts hv).2.2
  case silent =>
    intro v hv passed
    rw [(parts hv).2.1, List.isEmpty_iff] at passed
    rw [(parts hv).2.2, passed, String.intercalate_nil]

/-! ## Putting judgments together -/

/-- The list has the last judgment of each category, in the order of categories. -/
structure Latest (all vs : List Validation) : Prop where
  ascending : Ascending.IsAscending rank vs
  members : ∀ v, v ∈ vs ↔ ∃ before after, all = before ++ v :: after ∧ ∀ w ∈ after, w.category ≠ v.category

theorem latest_aggregate (existing new : List Validation) : Latest (existing ++ new) (aggregate existing new) := by
  refine ⟨Ascending.isAscending_lastOf rank _, fun v => ?_⟩
  simp only [aggregate, Ascending.mem_lastOf_iff, ne_eq, rank, Category.rank_inj]

theorem aggregate_aggregate (existing first second : List Validation) :
    aggregate (aggregate existing first) second = aggregate existing (first ++ second) := by
  rw [aggregate, aggregate, Ascending.lastOf_append_left, List.append_assoc]
  rfl

theorem aggregate_self {vs : List Validation} (h : Ascending.IsAscending rank vs) : aggregate vs vs = vs := by
  have again := Ascending.lastOf_lastOf_append rank [] vs
  rwa [List.nil_append, Ascending.lastOf_eq_self h] at again

/-- Whatever passes and failures are collected, in whatever order, the list sums them up. Of judgments that are put
together the last one of each category is kept; to put the same ones in again, or all of them, changes nothing, and they
may be put in one after the other or together. -/
theorem judgments_collect_and_aggregate (rs : List Remark) (existing first second : List Validation) :
    SumsUp rs (collected rs) ∧ Latest (existing ++ first) (aggregate existing first) ∧
    aggregate (aggregate existing first) first = aggregate existing first ∧
    aggregate (aggregate existing first) (aggregate existing first) = aggregate existing first ∧
    aggregate (aggregate existing first) second = aggregate existing (first ++ second) := by
  refine ⟨(tells_collected rs).sumsUp, latest_aggregate existing first, ?_, ?_, aggregate_aggregate existing first second⟩
  · exact Ascending.lastOf_lastOf_append rank existing first
  · exact aggregate_self (latest_aggregate existing first).ascending

example : collected [.fail .imports "a.wdl not found", .pass .imports, .pass .manifest, .fail .imports "b.wdl not found"] =
    [valid .manifest, invalid .imports "a.wdl not found; b.wdl not found"] := by decide

end WorkflowCatalog.Validation
