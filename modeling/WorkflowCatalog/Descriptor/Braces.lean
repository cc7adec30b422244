import WorkflowCatalog.Text.Split

/-!
# Balanced braces

Curly braces of a text must pair up, those after a comment mark on the same line left out of account.
-/
namespace WorkflowCatalog.Braces

inductive Imbalance
  | unexpected (line : Nat)
  | unclosed (count : Nat)
deriving DecidableEq, Repr

def Imbalance.message : Imbalance → String
  | unexpected line => "unexpected '\x7d' on line " ++ toString line
  | unclosed count => toString count ++ " unclosed '\x7b'"

/-- How many braces are open after some text, given how many were before; none if one closes too many. -/
def openAfter (depth : Nat) : List Char → Option Nat
  | [] => some depth
  | c :: cs =>
    if c = '{' then openAfter (depth + 1) cs
    else if c = '}' then
      match depth with
      | 0 => none
      | d + 1 => openAfter d cs
    else openAfter depth cs

/-- Checks lines, the first of which has the given number. -/
def checkLines (depth number : Nat) : List (List Char) → Except Imbalance Unit
  | [] => if depth = 0 then .ok () else .error (.unclosed depth)
  | l :: ls =>
    match openAfter depth l with
    | none => .error (.unexpected number)
    | some d => checkLines d (number + 1) ls

/-- The lines of a text up to their comments. -/
def codeLines (comment : String) (text : String) : List (List Char) :=
  (Text.lines text.toList).map (Text.untilMark comment.toList)

def check (comment text : String) : Except Imbalance Unit := checkLines 0 1 (codeLines comment text)

@[simp] theorem openAfter_nil (depth : Nat) : openAfter depth [] = some depth := rfl

theorem openAfter_append (depth : Nat) (cs ds : List Char) :
    openAfter depth (cs ++ ds) = (openAfter depth cs).bind fun d => openAfter d ds := by
  induction cs generalizing depth with
  | nil => rfl
  | cons c cs ih =>
    simp only [List.cons_append, openAfter]
    split
    · exact ih _
    · split
      · cases depth with
        | zero => rfl
        | succ d => exact ih _
      · exact ih _

end WorkflowCatalog.Braces
