import WorkflowCatalog.Unicode.Fold
import WorkflowCatalog.Unicode.Property

/-!
# Regular expressions

Expressions over sequences of numbers, which are characters or bytes. A match runs from one position of
a text to another; only whether there is one counts, so expressions have no preferences and no groups.
-/
namespace WorkflowCatalog

/-- A set of symbols. -/
inductive Symbols
  | within (ranges : List (Nat × Nat))
  | union (a b : Symbols)
  | inter (a b : Symbols)
  | complement (a : Symbols)
  | anyCase (unicode : Bool) (a : Symbols)
deriving DecidableEq, Repr

namespace Symbols

/-- The other case of a letter of ASCII. -/
def asciiVariants (n : Nat) : List Nat :=
  if 65 ≤ n ∧ n ≤ 90 then [n, n + 32] else if 97 ≤ n ∧ n ≤ 122 then [n, n - 32] else [n]

def variants (unicode : Bool) (n : Nat) : List Nat :=
  if unicode then Unicode.caseVariants n else asciiVariants n

def contains : Symbols → Nat → Bool
  | within ranges, n => Unicode.within ranges n
  | union a b, n => a.contains n || b.contains n
  | inter a b, n => a.contains n && b.contains n
  | complement a, n => !a.contains n
  | anyCase unicode a, n => (variants unicode n).any a.contains

def single (n : Nat) : Symbols := within [(n, n)]

def all : Symbols := complement (within [])

def nothing : Symbols := within []

@[simp] theorem contains_single (n m : Nat) : (single n).contains m = decide (m = n) := by
  simp only [single, contains, Unicode.within, List.any_cons, List.any_nil, Bool.or_false]
  by_cases h : m = n
  · simp [h]
  · simp only [h, decide_false, Bool.and_eq_false_iff, decide_eq_false_iff_not]
    omega

@[simp] theorem contains_all (n : Nat) : all.contains n = true := rfl

/-- About how many steps of a machine test for the set. -/
def weight : Symbols → Nat
  | within ranges => ranges.length + 1
  | union a b => a.weight + b.weight
  | inter a b => min a.weight b.weight
  | complement a => a.weight
  | anyCase _ a => a.weight

end Symbols

/-- What holds between two symbols of a text, or at its ends. -/
inductive Place
  | textStart | textEnd | lineStart | lineEnd | returnLineStart | returnLineEnd
  | wordEdge (unicode : Bool) | notWordEdge (unicode : Bool) | wordStart (unicode : Bool) | wordEnd (unicode : Bool)
  | wordStartHalf (unicode : Bool) | wordEndHalf (unicode : Bool)
deriving DecidableEq, Repr

inductive Regex
  | empty
  | one (s : Symbols)
  | place (p : Place)
  | both (a b : Regex)
  | either (a b : Regex)
  | times (least : Nat) (most : Option Nat) (a : Regex)
deriving DecidableEq, Repr

namespace Place

def isWord (unicode : Bool) : Option Nat → Bool
  | none => false
  | some n =>
    if n < 128 then (48 ≤ n && n ≤ 57) || (65 ≤ n && n ≤ 90) || n == 95 || (97 ≤ n && n ≤ 122)
    else unicode && Unicode.within Unicode.word n

/-- Whether the place lies between `before` and `after`, neighbours that are missing at the ends. -/
def holds (p : Place) (before after : Option Nat) : Bool :=
  match p with
  | textStart => before.isNone
  | textEnd => after.isNone
  | lineStart => before.isNone || before == some 10
  | lineEnd => after.isNone || after == some 10
  | returnLineStart => before.isNone || before == some 10 || (before == some 13 && after != some 10)
  | returnLineEnd => after.isNone || after == some 13 || (after == some 10 && before != some 13)
  | wordEdge u => isWord u before != isWord u after
  | notWordEdge u => isWord u before == isWord u after
  | wordStart u => !isWord u before && isWord u after
  | wordEnd u => isWord u before && !isWord u after
  | wordStartHalf u => !isWord u before
  | wordEndHalf u => !isWord u after

end Place

namespace Regex

def symbolBefore (text : List Nat) (i : Nat) : Option Nat := if i = 0 then none else text[i - 1]?

def stepOver (s : Symbols) (text : List Nat) (i : Nat) : Option Nat :=
  match text[i]? with
  | some n => if s.contains n then some (i + 1) else none
  | none => none

/-- Positions of the first list, then those only in the second. -/
def merge (ps qs : List Nat) : List Nat := ps ++ qs.filter fun q => !ps.contains q

def exactly (step : List Nat → List Nat) : Nat → List Nat → List Nat
  | 0, ps => ps
  | n + 1, ps => if ps.isEmpty then [] else exactly step n (step ps)

/-- Positions reached in at most `n` steps more from those reached last. -/
def upTo (step : List Nat → List Nat) : Nat → List Nat → List Nat → List Nat
  | 0, reached, _ => reached
  | n + 1, reached, latest =>
    let new := (step latest).filter fun q => !reached.contains q
    if new.isEmpty then reached else upTo step n (reached ++ new) new

/-- Where matches end that start at one of the positions. -/
def ends (text : List Nat) : Regex → List Nat → List Nat
  | empty, ps => ps
  | one s, ps => ps.filterMap (stepOver s text)
  | place p, ps => ps.filter fun i => p.holds (symbolBefore text i) text[i]?
  | both a b, ps => b.ends text (a.ends text ps)
  | either a b, ps => merge (a.ends text ps) (b.ends text ps)
  | times least most a, ps =>
    let first := exactly (a.ends text) least ps
    let more := match most with
      | some m => m - least
      | none => text.length + 1
    upTo (a.ends text) more first first

/-- Whether the expression matches anywhere in the text. -/
def search (r : Regex) (text : List Nat) : Bool := !(r.ends text (List.range (text.length + 1))).isEmpty

/-- Whether the expression matches the whole text. -/
def matchesAll (r : Regex) (text : List Nat) : Bool := (r.ends text [0]).contains text.length

/-- About how many steps of a machine the expression makes. -/
def weight : Regex → Nat
  | empty => 1
  | one s => s.weight
  | place _ => 1
  | both a b => a.weight + b.weight
  | either a b => a.weight + b.weight + 1
  | times least most a => (max (max least (most.getD least)) 1) * (a.weight + 1)

end Regex

end WorkflowCatalog
