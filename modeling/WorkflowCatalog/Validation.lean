import WorkflowCatalog.Ascending
import WorkflowCatalog.Language

/-!
# Validations

A version is judged in several categories, at most once in each. Judgments are kept in the order of
their categories.
-/
namespace WorkflowCatalog

inductive Category | manifest | descriptor (language : Language) | testParameters | imports
deriving DecidableEq, Repr

/-- The place in the order of categories. -/
def Category.rank : Category → Nat
  | manifest => 0
  | descriptor l => 1 + l.rank
  | testParameters => 5
  | imports => 6

theorem Category.rank_inj {a b : Category} : a.rank = b.rank ↔ a = b := by
  cases a with
  | descriptor l => cases b with
    | descriptor m => cases l <;> cases m <;> decide
    | _ => cases l <;> decide
  | _ => cases b with
    | descriptor m => cases m <;> decide
    | _ => decide

structure Validation where
  category : Category
  isValid : Bool
  message : String
deriving DecidableEq, Repr

namespace Validation

def valid (c : Category) : Validation := ⟨c, true, ""⟩

def invalid (c : Category) (message : String) : Validation := ⟨c, false, message⟩

def rank (v : Validation) : Nat := v.category.rank

theorem rank_eq_iff {v : Validation} {k : Category} : v.rank = k.rank ↔ v.category = k := Category.rank_inj

/-- The last judgment of each category. -/
def aggregate (existing new : List Validation) : List Validation := Ascending.lastOf rank (existing ++ new)

/-- Adds a pass, unless the category has been judged. -/
def pass (vs : List Validation) (c : Category) : List Validation := Ascending.offer rank (valid c) vs

/-- Adds a failure. It replaces a pass, and its message is joined to those of earlier failures. -/
def fail (vs : List Validation) (c : Category) (message : String) : List Validation :=
  match vs.find? fun v => v.category == c && !v.isValid with
  | some v => Ascending.put rank (invalid c (v.message ++ "; " ++ message)) vs
  | none => Ascending.put rank (invalid c message) vs

theorem isAscending_pass {vs : List Validation} (h : Ascending.IsAscending rank vs) (c : Category) :
    Ascending.IsAscending rank (pass vs c) :=
  Ascending.isAscending_offer h _

theorem isAscending_fail {vs : List Validation} (h : Ascending.IsAscending rank vs) (c : Category) (message : String) :
    Ascending.IsAscending rank (fail vs c message) := by
  unfold fail
  split <;> exact Ascending.isAscending_put h _

end Validation

end WorkflowCatalog
