import WorkflowCatalog.Text.Utf8
import WorkflowCatalog.Toml.Scalar

/-!
# Reading TOML

A document is read line by line into sections, each a header with pairs of keys and values, and these
build the table. Each reader takes something off the front of the text and returns what is left.
-/
namespace WorkflowCatalog.Toml

def isBlank (c : Char) : Bool := c = ' ' || c = '\t'

def dropBlanks (cs : List Char) : List Char := cs.dropWhile isBlank

/-- Characters that may stand in comments and texts on one line. -/
def isPrintable (c : Char) : Bool := c = '\t' || (0x20 ≤ c.toNat && c.toNat ≠ 0x7F)

/-- What follows the end of a line, with a comment before it or not; the text may end too. -/
def lineEnd? (cs : List Char) : Option (List Char) :=
  let rest := match dropBlanks cs with
    | '#' :: comment => comment.dropWhile isPrintable
    | rest => rest
  match rest with
  | [] => some []
  | '\n' :: rest => some rest
  | '\r' :: '\n' :: rest => some rest
  | _ => none

/-- Leaves out blanks, line ends and comments. -/
def dropFiller (inComment : Bool) : List Char → List Char
  | [] => []
  | '\n' :: rest => dropFiller false rest
  | '\r' :: '\n' :: rest => dropFiller false rest
  | c :: rest =>
    if inComment && isPrintable c then dropFiller true rest
    else if c = '#' then dropFiller true rest
    else if isBlank c then dropFiller false rest
    else c :: rest

def shortEscape? (c : Char) : Option Char :=
  match c with
  | 'b' => some '\x08'
  | 't' => some '\t'
  | 'n' => some '\n'
  | 'f' => some '\x0c'
  | 'r' => some '\r'
  | '"' => some '"'
  | '\\' => some '\\'
  | _ => none

/-- A text up to the closing quotation mark. -/
def basic : List Char → Option (List Char × List Char)
  | '"' :: rest => some ([], rest)
  | '\\' :: 'u' :: a :: b :: c :: d :: rest => do
    let x ← Text.character? [a, b, c, d]
    let (t, rest) ← basic rest
    return (x :: t, rest)
  | '\\' :: 'U' :: a :: b :: c :: d :: e :: f :: g :: h :: rest => do
    let x ← Text.character? [a, b, c, d, e, f, g, h]
    let (t, rest) ← basic rest
    return (x :: t, rest)
  | '\\' :: e :: rest => do
    let x ← shortEscape? e
    let (t, rest) ← basic rest
    return (x :: t, rest)
  | c :: rest =>
    if c = '\\' || !isPrintable c then none
    else (basic rest).map fun r => (c :: r.1, r.2)
  | [] => none

/-- A text without escapes up to the closing apostrophe. -/
def literal : List Char → Option (List Char × List Char)
  | '\'' :: rest => some ([], rest)
  | c :: rest => if isPrintable c then (literal rest).map fun r => (c :: r.1, r.2) else none
  | [] => none

/-- Up to two more marks right after the three that close a text belong to it. -/
def closing (mark : Char) (rest : List Char) : List Char × List Char :=
  match rest with
  | a :: b :: more =>
    if a = mark ∧ b = mark then ([a, b], more) else if a = mark then ([a], b :: more) else ([], rest)
  | [a] => if a = mark then ([a], []) else ([], rest)
  | [] => ([], [])

/-- Whether only blanks stand before the end of the line. -/
def endsLine (cs : List Char) : Bool :=
  match dropBlanks cs with
  | '\n' :: _ => true
  | '\r' :: '\n' :: _ => true
  | _ => false

/-- A text of several lines; after a backslash at the end of a line, blanks and line ends are left out. -/
def basicLines (folding : Bool) : List Char → Option (List Char × List Char)
  | '"' :: '"' :: '"' :: rest => some (closing '"' rest)
  | '\n' :: rest =>
    if folding then basicLines true rest else (basicLines false rest).map fun r => ('\n' :: r.1, r.2)
  | '\r' :: '\n' :: rest =>
    if folding then basicLines true rest else (basicLines false rest).map fun r => ('\n' :: r.1, r.2)
  | '\\' :: 'u' :: a :: b :: c :: d :: rest => do
    let x ← Text.character? [a, b, c, d]
    let (t, rest) ← basicLines false rest
    return (x :: t, rest)
  | '\\' :: 'U' :: a :: b :: c :: d :: e :: f :: g :: h :: rest => do
    let x ← Text.character? [a, b, c, d, e, f, g, h]
    let (t, rest) ← basicLines false rest
    return (x :: t, rest)
  | '\\' :: rest =>
    if endsLine rest then basicLines true rest
    else match rest with
      | e :: rest => do
        let x ← shortEscape? e
        let (t, rest) ← basicLines false rest
        return (x :: t, rest)
      | [] => none
  | c :: rest =>
    if folding && isBlank c then basicLines true rest
    else if isPrintable c then (basicLines false rest).map fun r => (c :: r.1, r.2)
    else none
  | [] => none

def literalLines : List Char → Option (List Char × List Char)
  | '\'' :: '\'' :: '\'' :: rest => some (closing '\'' rest)
  | '\r' :: '\n' :: rest => (literalLines rest).map fun r => ('\n' :: r.1, r.2)
  | c :: rest => if c = '\n' || isPrintable c then (literalLines rest).map fun r => (c :: r.1, r.2) else none
  | [] => none

/-- A line end right after the opening marks does not count. -/
def dropFirstLineEnd : List Char → List Char
  | '\n' :: rest => rest
  | '\r' :: '\n' :: rest => rest
  | cs => cs

def isBareKeyChar (c : Char) : Bool := Text.isLetter c || Text.isDigit c || c = '-' || c = '_'

def simpleKey? (cs : List Char) : Option (String × List Char) := do
  let (k, rest) ← match cs with
    | '"' :: rest => basic rest
    | '\'' :: rest => literal rest
    | _ =>
      let k := cs.takeWhile isBareKeyChar
      if k.isEmpty then none else some (k, cs.dropWhile isBareKeyChar)
  return (String.ofList k, rest)

/-- Keys with points between them; the fuel bounds their number. -/
def keys? : Nat → List Char → Option (List String × List Char)
  | 0, _ => none
  | fuel + 1, cs => do
    let (k, rest) ← simpleKey? (dropBlanks cs)
    match dropBlanks rest with
    | '.' :: more =>
      let (ks, rest) ← keys? fuel more
      return (k :: ks, rest)
    | rest => return ([k], rest)

/-- The depth to which values may be nested, and keys joined. -/
def depthLimit : Nat := 80

/-- A key and what leads to it. -/
def key? (cs : List Char) : Option ((List String × String) × List Char) := do
  let (ks, rest) ← keys? (depthLimit - 1) cs
  match ks.reverse with
  | k :: path => return ((path.reverse, k), rest)
  | [] => none

/-- A key, the equality sign, and a value. -/
def pair? (value : List Char → Option (Toml × List Char)) (cs : List Char) : Option (Pair × List Char) := do
  let ((path, key), rest) ← key? cs
  match rest with
  | '=' :: rest =>
    let (v, rest) ← value (dropBlanks rest)
    return (⟨path, key, v⟩, rest)
  | _ => none

/-- Items of an array up to its end; a comma may follow the last one. -/
def items? (value : List Char → Option (Toml × List Char)) : Nat → List Char → Option (List Toml × List Char)
  | 0, _ => none
  | fuel + 1, cs =>
    match dropFiller false cs with
    | ']' :: rest => some ([], rest)
    | start => do
      let (v, rest) ← value start
      match dropFiller false rest with
      | ',' :: rest =>
        let (vs, rest) ← items? value fuel rest
        return (v :: vs, rest)
      | ']' :: rest => return ([v], rest)
      | _ => none

/-- Pairs of a table on one line, after the first. -/
def pairs? (value : List Char → Option (Toml × List Char)) : Nat → List Char → Option (List Pair × List Char)
  | 0, _ => none
  | fuel + 1, cs => do
    let (p, rest) ← pair? value cs
    match dropBlanks rest with
    | ',' :: rest =>
      let (ps, rest) ← pairs? value fuel rest
      return (p :: ps, rest)
    | '}' :: rest => return ([p], rest)
    | _ => none

def tableOf? (pairs : List Pair) : Option Toml := (Fields.addAll? pairs []).map fun fs => .table (closeFields fs)

/-- A value at the front of the text, nested less deep than the fuel. -/
def value : Nat → List Char → Option (Toml × List Char)
  | 0, _ => none
  | fuel + 1, cs =>
    match cs with
    | '"' :: '"' :: '"' :: rest =>
      (basicLines false (dropFirstLineEnd rest)).map fun r => (.text (String.ofList r.1), r.2)
    | '"' :: rest => (basic rest).map fun r => (.text (String.ofList r.1), r.2)
    | '\'' :: '\'' :: '\'' :: rest =>
      (literalLines (dropFirstLineEnd rest)).map fun r => (.text (String.ofList r.1), r.2)
    | '\'' :: rest => (literal rest).map fun r => (.text (String.ofList r.1), r.2)
    | '[' :: rest =>
      if fuel = 0 then none else (items? (value fuel) (rest.length + 1) rest).map fun r => (.array r.1, r.2)
    | '{' :: rest =>
      if fuel = 0 then none
      else match dropBlanks rest with
        | '}' :: rest => some (.table [], rest)
        | start => do
          let (ps, rest) ← pairs? (value fuel) (rest.length + 1) start
          return (← tableOf? ps, rest)
    | _ =>
      let (w, rest) := word cs
      (ofWord? w).map fun v => (v, rest)

/-- A line that is not empty: a header of a table, one of an item of a list of tables, or a pair. -/
inductive Line
  | table (path : List String) (key : String)
  | item (path : List String) (key : String)
  | pair (p : Pair)

def line? (cs : List Char) : Option (Line × List Char) := do
  match cs with
  | '[' :: '[' :: rest =>
    let ((path, key), rest) ← key? rest
    match rest with
    | ']' :: ']' :: rest => return (.item path key, ← lineEnd? rest)
    | _ => none
  | '[' :: rest =>
    let ((path, key), rest) ← key? rest
    match rest with
    | ']' :: rest => return (.table path key, ← lineEnd? rest)
    | _ => none
  | _ =>
    let (p, rest) ← pair? (value depthLimit) cs
    return (.pair p, ← lineEnd? rest)

/-- The lines of a document; the fuel bounds their number. -/
def lines? : Nat → List Char → Option (List Line)
  | 0, _ => none
  | fuel + 1, cs =>
    match dropFiller false cs with
    | [] => some []
    | start => do
      let (l, rest) ← line? start
      return l :: (← lines? fuel rest)

/-- The pairs up to the next header. -/
def pairsOf : List Line → List Pair
  | .pair p :: rest => p :: pairsOf rest
  | _ => []

/-- Opens the tables of the headers one after the other. -/
def sections? : List Line → Fields → Option Fields
  | [], fs => some fs
  | .pair _ :: rest, fs => sections? rest fs
  | .table path key :: rest, fs =>
    (Fields.within? (Fields.openTable? key (pairsOf rest)) path fs).bind (sections? rest)
  | .item path key :: rest, fs =>
    (Fields.within? (Fields.openItem? key (pairsOf rest)) path fs).bind (sections? rest)

/-- The table of a document; a byte order mark before it is no part of it. -/
def read? (text : String) : Option (List (String × Toml)) := do
  let cs := match text.toList with
    | '\uFEFF' :: rest => rest
    | cs => cs
  let ls ← lines? (cs.length + 1) cs
  return closeFields (← sections? ls (← Fields.addAll? (pairsOf ls) []))

end WorkflowCatalog.Toml
