import WorkflowCatalog.Text.Split

/-!
# Ranges of characters

Tables of characters are written in hexadecimal, as single numbers or as `low-high`, with a blank between.
-/
namespace WorkflowCatalog.Unicode

/-- Numbers joined by hyphens, in groups set apart by blanks. -/
def groups (rows : List String) : List (List Nat) :=
  rows.flatMap fun row => (Text.splitOn ' ' row.toList).map fun group =>
    (Text.splitOn '-' group).map fun digits => (Text.natural? 16 digits).getD 0

/-- The ends of each range. -/
def ranges (rows : List String) : List (Nat × Nat) :=
  (groups rows).map fun group => (group.head?.getD 0, group.getLast?.getD 0)

def within (rs : List (Nat × Nat)) (n : Nat) : Bool := rs.any fun r => decide (r.1 ≤ n) && decide (n ≤ r.2)

end WorkflowCatalog.Unicode
