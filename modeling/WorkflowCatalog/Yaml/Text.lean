import WorkflowCatalog.Yaml.Glyph
import WorkflowCatalog.Text.Utf8

/-!
# Scalars as they are written

Plain, quoted and block scalars. Each reader returns the scalar's text and what follows it, or nothing
where the scalar is malformed. Lines of plain and quoted scalars are folded: one break becomes a space,
and of several breaks all but the first stay.
-/
namespace WorkflowCatalog.Yaml

/-- Blanks and breaks between two words. Blanks before the first break count only if there is none. -/
structure Gap where
  blanks : List Char
  first : Option Char
  more : List Char
deriving DecidableEq, Repr

namespace Gap

def none : Gap := ⟨[], .none, []⟩

def hasBreak (g : Gap) : Bool := g.first.isSome

/-- What the gap stands for in the text. -/
def folded (g : Gap) : List Char :=
  match g.first with
  | .none => g.blanks
  | some b => if b = '\n' then (if g.more.isEmpty then [' '] else g.more) else b :: g.more

end Gap

/-- Reads the gap at the front. After a break, a tab left of `indent` is refused. -/
def gap (indent : Option Nat) : List Glyph → Gap → Option (Gap × List Glyph)
  | [], g => some (g, [])
  | x :: rest, g =>
    if isBlank x.char then
      match g.first, indent with
      | .none, _ => gap indent rest { g with blanks := g.blanks ++ [x.char] }
      | some _, some i => if x.char = '\t' ∧ x.column < i then none else gap indent rest g
      | some _, .none => gap indent rest g
    else if isBreak x.char then
      match g.first with
      | .none => gap indent rest { g with first := some x.char }
      | some _ => gap indent rest { g with more := g.more ++ [x.char] }
    else some (g, x :: rest)

/-! ## Plain scalars -/

/-- Where a plain word ends: before a space, or before an indicator. -/
def endsWord (flow : Bool) (c next : Char) : Bool :=
  (c = ':' && isSpace next) || (flow && isFlowIndicator c)

/-- In flow context a colon must not touch an indicator. -/
def clashes (flow : Bool) (c next : Char) : Bool :=
  flow && c = ':' && (isFlowIndicator next || next = '?')

def word (flow : Bool) : List Glyph → Option (List Char × List Glyph)
  | [] => some ([], [])
  | x :: rest =>
    if isSpace x.char then some ([], x :: rest)
    else if clashes flow x.char (peek rest 0) then none
    else if endsWord flow x.char (peek rest 0) then some ([], x :: rest)
    else (word flow rest).map fun r => (x.char :: r.1, r.2)

/-- The words of a plain scalar; the flag tells whether a break follows the last word. -/
def plainFrom (flow : Bool) (indent : Nat) :
    Nat → Gap → List Glyph → Option (List Char × Bool × List Glyph)
  | 0, _, _ => none
  | fuel + 1, g, rest =>
    if atDocumentMark rest || peek rest 0 = '#' then some ([], g.hasBreak, rest)
    else do
      let (w, rest) ← word flow rest
      let said := if w.isEmpty then [] else g.folded ++ w
      let g := if w.isEmpty then g else Gap.none
      if !isBlank (peek rest 0) && !isBreak (peek rest 0) then return (said, g.hasBreak, rest)
      let (g, rest) ← gap (some indent) rest g
      if !flow && columnOf rest < indent then return (said, g.hasBreak, rest)
      let (more, broke, rest) ← plainFrom flow indent fuel g rest
      return (said ++ more, broke, rest)

def plain (flow : Bool) (indent : Nat) (rest : List Glyph) : Option (List Char × Bool × List Glyph) :=
  plainFrom flow indent (rest.length + 1) Gap.none rest

/-! ## Quoted scalars -/

/-- How a run of quoted characters ends. -/
inductive RunEnd | closed | gap | escapedBreak
deriving DecidableEq, Repr

def singleRun : List Glyph → List Char × RunEnd × List Glyph
  | [] => ([], .gap, [])
  | x :: y :: rest =>
    if isSpace x.char then ([], .gap, x :: y :: rest)
    else if x.char = '\'' then
      if y.char = '\'' then
        let (cs, stop, rest) := singleRun rest
        ('\'' :: cs, stop, rest)
      else ([], .closed, y :: rest)
    else
      let (cs, stop, rest) := singleRun (y :: rest)
      (x.char :: cs, stop, rest)
  | [x] => ([], .gap, [x])

/-- Inside a double-quoted run: in the text, after a backslash, or within a numeric escape. -/
inductive Escape | none | begun | hex (left value : Nat)
deriving DecidableEq, Repr

def escaped? (c : Char) : Option Char :=
  match c with
  | '0' => some '\x00'
  | 'a' => some '\x07'
  | 'b' => some '\x08'
  | 't' => some '\t'
  | '\t' => some '\t'
  | 'n' => some '\n'
  | 'v' => some '\x0b'
  | 'f' => some '\x0c'
  | 'r' => some '\r'
  | 'e' => some '\x1b'
  | ' ' => some ' '
  | '"' => some '"'
  | '/' => some '/'
  | '\\' => some '\\'
  | 'N' => some '\u0085'
  | '_' => some '\u00a0'
  | 'L' => some '\u2028'
  | 'P' => some '\u2029'
  | _ => none

def hexLength? (c : Char) : Option Nat :=
  match c with
  | 'x' => some 2
  | 'u' => some 4
  | 'U' => some 8
  | _ => none

/-- The character of a code point that is none of the surrogates. -/
def character? (n : Nat) : Option Char := if h : n.isValidChar then some (Char.ofNatAux n h) else none

def doubleRun : Escape → List Glyph → Option (List Char × RunEnd × List Glyph)
  | _, [] => some ([], .gap, [])
  | .none, x :: rest =>
    if isSpace x.char then some ([], .gap, x :: rest)
    else if x.char = '"' then some ([], .closed, rest)
    else if x.char = '\\' then
      if isBreak (peek rest 0) then some ([], .escapedBreak, rest.drop 1) else doubleRun .begun rest
    else (doubleRun .none rest).map fun r => (x.char :: r.1, r.2)
  | .begun, x :: rest =>
    match escaped? x.char, hexLength? x.char with
    | some c, _ => (doubleRun .none rest).map fun r => (c :: r.1, r.2)
    | .none, some n => doubleRun (.hex n 0) rest
    | .none, .none => none
  | .hex left value, x :: rest => do
    let d ← Text.hexValue? x.char
    let value := value * 16 + d
    if left ≤ 1 then
      let c ← character? value
      (doubleRun .none rest).map fun r => (c :: r.1, r.2)
    else doubleRun (.hex (left - 1) value) rest

def run (single : Bool) (rest : List Glyph) : Option (List Char × RunEnd × List Glyph) :=
  if single then some (singleRun rest) else doubleRun .none rest

/-- The text after the opening quote, which may span lines but not hold a document mark. -/
def quotedFrom (single : Bool) : Nat → List Glyph → Option (List Char × List Glyph)
  | 0, _ => none
  | fuel + 1, rest =>
    if atDocumentMark rest || isEnd (peek rest 0) then none
    else do
      let (cs, stop, rest) ← run single rest
      match stop with
      | .closed => return (cs, rest)
      | .gap =>
        let (g, rest) ← gap none rest Gap.none
        let (more, rest) ← quotedFrom single fuel rest
        return (cs ++ g.folded ++ more, rest)
      | .escapedBreak =>
        let (g, rest) ← gap none rest { Gap.none with first := some ' ' }
        let (more, rest) ← quotedFrom single fuel rest
        return (cs ++ g.more ++ more, rest)

def quoted (single : Bool) (rest : List Glyph) : Option (List Char × List Glyph) :=
  quotedFrom single (rest.length + 1) rest

/-! ## Block scalars -/

/-- What happens to the breaks at the end: one stays, none or all. -/
inductive Chomping | clip | strip | keep
deriving DecidableEq, Repr

def chomping? (c : Char) : Option Chomping :=
  if c = '+' then some .keep else if c = '-' then some .strip else none

/-- Chomping and indentation, in either order. -/
def blockHeader (rest : List Glyph) : Option (Chomping × Nat × List Glyph) :=
  let increment? (c : Char) : Option Nat := Text.digitValue? 10 c
  match chomping? (peek rest 0), increment? (peek rest 0) with
  | some ch, _ =>
    match increment? (peek rest 1) with
    | some 0 => none
    | some n => some (ch, n, rest.drop 2)
    | none => some (ch, 0, rest.drop 1)
  | none, some 0 => none
  | none, some n =>
    match chomping? (peek rest 1) with
    | some ch => some (ch, n, rest.drop 2)
    | none => some (.clip, n, rest.drop 1)
  | none, none => some (.clip, 0, rest)

/-- Spaces up to the indentation and empty lines. Without an indentation yet, the deepest column seen is
returned; a tab among the spaces is refused. -/
def blockBreaks (indent deepest : Nat) : List Glyph → Option (List Char × Nat × List Glyph)
  | [] => some ([], deepest, [])
  | x :: rest =>
    let short := indent = 0 || x.column < indent
    if short && x.char = ' ' then blockBreaks indent deepest rest
    else
      let deepest := max deepest x.column
      if short && x.char = '\t' then none
      else if isBreak x.char then (blockBreaks indent deepest rest).map fun r => (x.char :: r.1, r.2)
      else some ([], deepest, x :: rest)

/-- What the breaks before a line stand for. Only between two lines that start with no blank is a newline
folded. -/
def blockFold (literal blankBefore blankNow : Bool) (first : List Char) (more : List Char) : List Char :=
  if !literal && first = ['\n'] && !blankBefore && !blankNow then
    (if more.isEmpty then [' '] else []) ++ more
  else first ++ more

def blockLines (literal : Bool) (indent : Nat) :
    Nat → Bool → List Char → List Char → List Glyph → Option (List Char × List Char × List Char × List Glyph)
  | 0, _, _, _, _ => none
  | fuel + 1, blankBefore, first, more, rest =>
    if columnOf rest ≠ indent || isEnd (peek rest 0) then some ([], first, more, rest)
    else do
      let blankNow := isBlank (peek rest 0)
      let before := blockFold literal blankBefore blankNow first more
      let (line, rest) := spanChars (fun c => !isBreakOrEnd c) rest
      let (first, rest) := if isBreak (peek rest 0) then ([peek rest 0], rest.drop 1) else ([], rest)
      let (more, _, rest) ← blockBreaks indent 0 rest
      let (text, first, more, rest) ← blockLines literal indent fuel blankNow first more rest
      return (before ++ line ++ text, first, more, rest)

/-- A block scalar after its indicator; `parent` is the indentation of the block around it. -/
def block (literal : Bool) (parent : Int) (rest : List Glyph) : Option (List Char × List Glyph) := do
  let (chomping, increment, rest) ← blockHeader rest
  let rest := skipChars isBlank rest
  let rest := if peek rest 0 = '#' then skipChars (fun c => !isBreakOrEnd c) rest else rest
  if !isBreakOrEnd (peek rest 0) then none
  else
    let rest := if isBreak (peek rest 0) then rest.drop 1 else rest
    let given : Nat := if increment = 0 then 0 else (max parent 0).toNat + increment
    let (breaks, deepest, rest) ← blockBreaks given 0 rest
    let indent := if given = 0 then max (max deepest (parent + 1).toNat) 1 else given
    let (text, first, more, rest) ← blockLines literal indent (rest.length + 1) false [] breaks rest
    let tail := match chomping with
      | .strip => []
      | .clip => first
      | .keep => first ++ more
    return (text ++ tail, rest)

end WorkflowCatalog.Yaml
