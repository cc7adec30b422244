import WorkflowCatalog.Yaml.Text
import WorkflowCatalog.Text.Utf8

/-!
# YAML tokens

A stream is cut into tokens from left to right. Indentation opens and closes blocks. Whether a token is
a mapping's key shows only at the colon after it, so a token that may be one is remembered, one for each
flow level, and the mark for the key is put in front of it later. A remembered token is forgotten after
its line, or after 1024 characters; where the indentation requires a key that is an error.
-/
namespace WorkflowCatalog.Yaml

inductive Token
  | yamlDirective (major minor : Nat)
  | tagDirective (handle expansion : String)
  | documentStart
  | documentEnd
  | blockSequence
  | blockMapping
  | blockEnd
  | flowSequence
  | flowSequenceEnd
  | flowMapping
  | flowMappingEnd
  | blockEntry
  | flowEntry
  | key
  | value
  | anchor (name : String)
  | alias (name : String)
  | tag (handle suffix : String)
  | scalar (text : String) (plain : Bool)
  | streamEnd
deriving DecidableEq, Repr, Inhabited

/-- A token that a colon may turn into a key. -/
structure KeyCandidate where
  required : Bool
  token : Nat
  line : Nat
  column : Nat
deriving DecidableEq, Repr

/-- `keys` has one place for each flow level, the innermost first. -/
structure Scanner where
  rest : List Glyph
  flow : Nat
  indent : Int
  outer : List Int
  keyAllowed : Bool
  keys : List (Option KeyCandidate)
  tokens : Array Token

namespace Scanner

def start (rest : List Glyph) : Scanner := ⟨rest, 0, -1, [], true, [none], #[]⟩

def line (s : Scanner) : Nat := lineOf s.rest

def column (s : Scanner) : Nat := columnOf s.rest

def put (s : Scanner) (t : Token) : Scanner := { s with tokens := s.tokens.push t }

def putAt (s : Scanner) (i : Nat) (t : Token) : Scanner := { s with tokens := s.tokens.insertIdxIfInBounds i t }

def drop (s : Scanner) (n : Nat) : Scanner := { s with rest := s.rest.drop n }

/-- Steps over blanks, comments and breaks. A tab is no blank where a block key may start. -/
def skipBlanks (s : Scanner) : Scanner :=
  go s.rest s.keyAllowed
where
  go : List Glyph → Bool → Scanner
  | [], allowed => { s with rest := [], keyAllowed := allowed }
  | x :: rest, allowed =>
    if x.column = 0 ∧ x.char = byteOrderMark then go rest allowed
    else if x.char = ' ' ∨ (x.char = '\t' ∧ (s.flow ≠ 0 ∨ !allowed)) then go rest allowed
    else if x.char = '#' then comment rest allowed
    else if isBreak x.char then go rest (allowed || s.flow = 0)
    else { s with rest := x :: rest, keyAllowed := allowed }
  comment : List Glyph → Bool → Scanner
  | [], allowed => { s with rest := [], keyAllowed := allowed }
  | x :: rest, allowed =>
    if isBreak x.char then go rest (allowed || s.flow = 0)
    else if isEnd x.char then { s with rest := x :: rest, keyAllowed := allowed }
    else comment rest allowed

/-- Forgets candidates that can no longer be keys. -/
def forgetStale (s : Scanner) : Option Scanner := do
  let keys ← s.keys.mapM fun
    | some k =>
      if k.line < s.line ∨ k.column + 1024 < s.column then (if k.required then none else some none)
      else some (some k)
    | none => some none
  return { s with keys }

/-- Forgets the candidate of the current level. -/
def dropKey (s : Scanner) : Option Scanner :=
  match s.keys with
  | some k :: keys => if k.required then none else some { s with keys := none :: keys }
  | _ => some s

/-- Remembers the token that starts here. -/
def saveKey (s : Scanner) : Option Scanner := do
  if s.keyAllowed then
    let required := s.flow = 0 && s.indent = (s.column : Int)
    let s ← s.dropKey
    return { s with keys := some ⟨required, s.tokens.size, s.line, s.column⟩ :: s.keys.drop 1 }
  else return s

/-- Closes the blocks that are indented deeper than `column`. -/
def closeBlocks (s : Scanner) (column : Int) : Scanner :=
  if s.flow ≠ 0 then s else go s.indent s.outer s.tokens
where
  go (indent : Int) : List Int → Array Token → Scanner
  | [], tokens => { s with indent, outer := [], tokens }
  | o :: outer, tokens =>
    if column < indent then go o outer (tokens.push .blockEnd) else { s with indent, outer := o :: outer, tokens }

/-- Opens a block at `column` if it is indented deeper than the block around it. -/
def openBlock (s : Scanner) (column : Int) (position : Option Nat) (t : Token) : Scanner :=
  if s.flow ≠ 0 ∨ column ≤ s.indent then s
  else
    let s := { s with indent := column, outer := s.indent :: s.outer }
    match position with
    | none => s.put t
    | some i => s.putAt i t

def openFlow (s : Scanner) (t : Token) : Option Scanner := do
  let s ← s.saveKey
  return { (s.put t).drop 1 with flow := s.flow + 1, keys := none :: s.keys, keyAllowed := true }

def closeFlow (s : Scanner) (t : Token) : Option Scanner := do
  let s ← s.dropKey
  let s := if s.flow = 0 then s else { s with flow := s.flow - 1, keys := s.keys.drop 1 }
  return { (s.put t).drop 1 with keyAllowed := false }

def flowEntry (s : Scanner) : Option Scanner := do
  let s ← s.dropKey
  return { (s.put .flowEntry).drop 1 with keyAllowed := true }

def blockEntry (s : Scanner) : Option Scanner := do
  let s ← if s.flow ≠ 0 then some s
    else if s.keyAllowed then some (s.openBlock s.column none .blockSequence)
    else none
  let s ← s.dropKey
  return { (s.put .blockEntry).drop 1 with keyAllowed := true }

def complexKey (s : Scanner) : Option Scanner := do
  let s ← if s.flow ≠ 0 then some s
    else if s.keyAllowed then some (s.openBlock s.column none .blockMapping)
    else none
  let s ← s.dropKey
  return { (s.put .key).drop 1 with keyAllowed := s.flow = 0 }

def value (s : Scanner) : Option Scanner :=
  match s.keys with
  | some k :: keys =>
    let s := (s.putAt k.token .key).openBlock k.column (some k.token) .blockMapping
    some { (s.put .value).drop 1 with keys := none :: keys, keyAllowed := false }
  | _ => do
    let s ← if s.flow ≠ 0 then some s
      else if s.keyAllowed then some (s.openBlock s.column none .blockMapping)
      else none
    return { (s.put .value).drop 1 with keyAllowed := s.flow = 0 }

def documentMark (s : Scanner) (t : Token) : Option Scanner := do
  let s ← (s.closeBlocks (-1)).dropKey
  return { (s.put t).drop 3 with keyAllowed := false }

def finish (s : Scanner) : Option Scanner := do
  let s ← (s.closeBlocks (-1)).dropKey
  return { s.put .streamEnd with keyAllowed := false }

/-! ### Anchors and tags -/

def mayEndAnchor (c : Char) : Bool :=
  isSpace c || c = '?' || c = ':' || c = ',' || c = ']' || c = '}' || c = '%' || c = '@' || c.toNat = 0x60

def anchorOrAlias (s : Scanner) (make : String → Token) : Option Scanner := do
  let s ← s.saveKey
  let (name, rest) := spanChars isWord (s.rest.drop 1)
  if name.isEmpty || !mayEndAnchor (peek rest 0) then none
  else return { s.put (make (String.ofList name)) with rest, keyAllowed := false }

def isUri (verbatim : Bool) (c : Char) : Bool :=
  isWord c || ";/?:@&=+$.%!~*'()".toList.contains c || (verbatim && (c = ',' || c = '[' || c = ']'))

/-- Characters of a tag, where a percent sign and two hexadecimal digits stand for a byte. -/
def uriBytes (verbatim : Bool) : List Glyph → Option (List UInt8 × List Glyph)
  | [] => some ([], [])
  | x :: a :: b :: rest =>
    if !isUri verbatim x.char then some ([], x :: a :: b :: rest)
    else if x.char = '%' then do
      let high ← Text.hexValue? a.char
      let low ← Text.hexValue? b.char
      let (bytes, rest) ← uriBytes verbatim rest
      return (UInt8.ofNat (high * 16 + low) :: bytes, rest)
    else (uriBytes verbatim (a :: b :: rest)).map fun r => (x.char.toString.toUTF8.toList ++ r.1, r.2)
  | x :: rest =>
    if !isUri verbatim x.char then some ([], x :: rest)
    else if x.char = '%' then none
    else (uriBytes verbatim rest).map fun r => (x.char.toString.toUTF8.toList ++ r.1, r.2)

/-- Escapes must spell whole characters. -/
def uri? (verbatim : Bool) (rest : List Glyph) : Option (String × List Glyph) := do
  let (bytes, rest) ← uriBytes verbatim rest
  let text ← String.fromUTF8? bytes.toByteArray
  return (text, rest)

/-- `!`, `!word` or `!word!`. -/
def tagHandle? (rest : List Glyph) : Option (String × List Glyph) :=
  if peek rest 0 ≠ '!' then none
  else
    let (name, rest) := spanChars isWord (rest.drop 1)
    if peek rest 0 = '!' then some (String.ofList ('!' :: name ++ ['!']), rest.drop 1)
    else some (String.ofList ('!' :: name), rest)

def isWholeHandle (handle : String) : Bool := 1 < handle.length && handle.toList.getLast? = some '!'

/-- The handle and suffix of a tag. A tag without a second mark belongs to the handle `!`. -/
def tagParts? (rest : List Glyph) : Option (String × String × List Glyph) :=
  if peek rest 1 = '<' then do
    let (suffix, rest) ← uri? true (rest.drop 2)
    if suffix.isEmpty || peek rest 0 ≠ '>' then none else return ("", suffix, rest.drop 1)
  else do
    let (handle, more) ← tagHandle? rest
    if isWholeHandle handle then
      let (suffix, rest) ← uri? false more
      if suffix.isEmpty then none else return (handle, suffix, rest)
    else
      let (suffix, rest) ← uri? false more
      let suffix := String.ofList (handle.toList.drop 1) ++ suffix
      if suffix.isEmpty then return ("", "!", rest) else return ("!", suffix, rest)

def tag (s : Scanner) : Option Scanner := do
  let s ← s.saveKey
  let (handle, suffix, rest) ← tagParts? s.rest
  if !isSpace (peek rest 0) && !(s.flow ≠ 0 && peek rest 0 = ',') then none
  else return { s.put (.tag handle suffix) with rest, keyAllowed := false }

/-! ### Directives -/

def versionNumber? (rest : List Glyph) : Option (Nat × List Glyph) :=
  let (digits, rest) := spanChars Text.isDigit rest
  if digits.isEmpty || 9 < digits.length then none
  else some (Text.digitsValue digits, rest)

def yamlDirective? (rest : List Glyph) : Option (Token × List Glyph) := do
  let (major, rest) ← versionNumber? (skipChars isBlank rest)
  if peek rest 0 ≠ '.' then none
  else
    let (minor, rest) ← versionNumber? (rest.drop 1)
    return (.yamlDirective major minor, rest)

def tagDirective? (rest : List Glyph) : Option (Token × List Glyph) := do
  let (handle, rest) ← tagHandle? (skipChars isBlank rest)
  if handle ≠ "!" ∧ !isWholeHandle handle ∨ !isBlank (peek rest 0) then none
  else
    let (expansion, rest) ← uri? true (skipChars isBlank rest)
    if expansion.isEmpty || !isSpace (peek rest 0) then none else return (.tagDirective handle expansion, rest)

def directive (s : Scanner) : Option Scanner := do
  let s ← (s.closeBlocks (-1)).dropKey
  let (name, rest) := spanChars isWord (s.rest.drop 1)
  if !isSpace (peek rest 0) then none
  else
    let (t, rest) ← match String.ofList name with
      | "YAML" => yamlDirective? rest
      | "TAG" => tagDirective? rest
      | _ => none
    let rest := skipChars isBlank rest
    let rest := if peek rest 0 = '#' then skipChars (fun c => !isBreakOrEnd c) rest else rest
    if !isBreakOrEnd (peek rest 0) then none
    else
      let rest := if isBreak (peek rest 0) then rest.drop 1 else rest
      return { s.put t with rest, keyAllowed := false }

/-! ### Scalars -/

def blockScalar (s : Scanner) (literal : Bool) : Option Scanner := do
  let s ← s.dropKey
  let (text, rest) ← block literal s.indent (s.rest.drop 1)
  return { s.put (.scalar (String.ofList text) false) with rest, keyAllowed := true }

def quotedScalar (s : Scanner) (single : Bool) : Option Scanner := do
  let s ← s.saveKey
  let (text, rest) ← quoted single (s.rest.drop 1)
  return { s.put (.scalar (String.ofList text) false) with rest, keyAllowed := false }

def plainScalar (s : Scanner) : Option Scanner := do
  let s ← s.saveKey
  let (text, broke, rest) ← plain (s.flow ≠ 0) (s.indent + 1).toNat s.rest
  return { s.put (.scalar (String.ofList text) true) with rest, keyAllowed := broke }

/-- Characters that start a plain scalar only with something other than a space after them, if at all. -/
def isIndicator (c : Char) : Bool := "-?:,[]\x7b\x7d#&*!|>'\"%@\x60".toList.contains c

def startsPlain (flow : Bool) (c next : Char) : Bool :=
  !(isSpace c || isIndicator c) || (c = '-' && !isBlank next) ||
    (!flow && (c = '?' || c = ':') && !isSpace next)

/-- The next token, or tokens where a block opens or closes before it. -/
def step (s : Scanner) : Option Scanner := do
  let s ← s.skipBlanks.forgetStale
  let s := s.closeBlocks s.column
  let c := peek s.rest 0
  let next := peek s.rest 1
  let flow := decide (s.flow ≠ 0)
  if isEnd c then s.finish
  else if s.column = 0 && c = '%' then s.directive
  else if isDocumentMark '-' s.rest then s.documentMark .documentStart
  else if isDocumentMark '.' s.rest then s.documentMark .documentEnd
  else if c = '[' then s.openFlow .flowSequence
  else if c = '{' then s.openFlow .flowMapping
  else if c = ']' then s.closeFlow .flowSequenceEnd
  else if c = '}' then s.closeFlow .flowMappingEnd
  else if c = ',' then s.flowEntry
  else if c = '-' && isSpace next then s.blockEntry
  else if c = '?' && (flow || isSpace next) then s.complexKey
  else if c = ':' && (flow || isSpace next) then s.value
  else if c = '*' then s.anchorOrAlias .alias
  else if c = '&' then s.anchorOrAlias .anchor
  else if c = '!' then s.tag
  else if c = '|' && !flow then s.blockScalar true
  else if c = '>' && !flow then s.blockScalar false
  else if c = '\'' then s.quotedScalar true
  else if c = '"' then s.quotedScalar false
  else if startsPlain flow c next then s.plainScalar
  else none

def runFrom : Nat → Scanner → Option Scanner
  | 0, _ => none
  | fuel + 1, s => do
    let s ← s.step
    if s.tokens.back? = some .streamEnd then return s else runFrom fuel s

end Scanner

/-- Every token but the last takes at least one character. -/
def tokens? (text : String) : Option (List Token) := do
  let rest ← stream? text
  let s ← Scanner.runFrom (rest.length + 1) (Scanner.start rest)
  return s.tokens.toList

end WorkflowCatalog.Yaml
