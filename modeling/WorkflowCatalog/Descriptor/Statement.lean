import WorkflowCatalog.Text.Split

/-!
# Statements in scripts

The few forms of statements that are looked for in scripts: a keyword at the start of a line, blanks, and
a path in quotes. Blanks may run over several lines.
-/
namespace WorkflowCatalog.Statement

def blanks (cs : List Char) : List Char := cs.dropWhile Text.isBlank

/-- What follows one blank at least. -/
def someBlanks? : List Char → Option (List Char)
  | [] => none
  | c :: cs => if Text.isBlank c then some (blanks cs) else none

def isQuote (c : Char) : Bool := c = '"' || c = '\''

/-- A quoted text that is not empty, and what follows it. Either quote may end it. -/
def quoted? : List Char → Option (List Char × List Char)
  | [] => none
  | c :: cs =>
    let body := cs.takeWhile fun d => !isQuote d
    match isQuote c, body, cs.dropWhile fun d => !isQuote d with
    | true, _ :: _, _ :: rest => some (body, rest)
    | _, _, _ => none

/-- The results of all statements of a form, from left to right. A form reads a statement off the front of
a text; one that starts a line is tried only there. Where one ends the search for the next goes on. -/
def all {α : Type} (startsLine : Bool) (form : List Char → Option (α × List Char)) :
    Nat → Bool → List Char → List α
  | 0, _, _ => []
  | fuel + 1, lineStart, cs =>
    match if lineStart || !startsLine then form cs else none with
    | some (a, rest) => a :: all startsLine form fuel false rest
    | none =>
      match cs with
      | [] => []
      | c :: rest => all startsLine form fuel (c = '\n') rest

/-- All statements of a form that starts a line. -/
def atLines {α : Type} (form : List Char → Option (α × List Char)) (text : String) : List α :=
  all true form (text.length + 1) true text.toList

/-- The first statement of a form, wherever it starts. -/
def first? {α : Type} (form : List Char → Option (α × List Char)) (text : String) : Option α :=
  (all false form (text.length + 1) true text.toList).head?

end WorkflowCatalog.Statement
