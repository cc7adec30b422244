/-!
# Characters of a YAML stream

A stream is a list of characters with their places, closed by an end mark. Every line break is one
glyph: a carriage return, a newline, both together and a next-line character all count as a newline,
while the Unicode line and paragraph separators stay themselves.
-/
namespace WorkflowCatalog.Yaml

structure Glyph where
  char : Char
  line : Nat
  column : Nat
deriving DecidableEq, Repr

/-- The end mark cannot be a character of a stream. -/
def endMark : Char := '\x00'

def isBreak (c : Char) : Bool := c = '\n' || c = '\u2028' || c = '\u2029'

def isBlank (c : Char) : Bool := c = ' ' || c = '\t'

def isEnd (c : Char) : Bool := c = endMark

def isBreakOrEnd (c : Char) : Bool := isBreak c || isEnd c

/-- Blank, break or end: what may follow an indicator. -/
def isSpace (c : Char) : Bool := isBlank c || isBreakOrEnd c

/-- Characters of anchors, tag handles and directive names. -/
def isWord (c : Char) : Bool := c.isAlphanum || c = '_' || c = '-'

def isFlowIndicator (c : Char) : Bool := c = ',' || c = '[' || c = ']' || c = '{' || c = '}'

def byteOrderMark : Char := '\uFEFF'

/-- Characters that a stream may hold. -/
def isPrintable (c : Char) : Bool :=
  let n := c.toNat
  n = 0x09 || n = 0x0A || n = 0x0D || (0x20 ≤ n && n ≤ 0x7E) || n = 0x85 || (0xA0 ≤ n && n ≤ 0xD7FF) ||
    (0xE000 ≤ n && n ≤ 0xFFFD) || 0x10000 ≤ n

/-- The stream of a text whose first character stands at the given place. -/
def glyphs (line column : Nat) : List Char → List Glyph
  | [] => [⟨endMark, line, column⟩]
  | '\r' :: '\n' :: cs => ⟨'\n', line, column⟩ :: glyphs (line + 1) 0 cs
  | c :: cs =>
    if c = '\r' ∨ c = '\u0085' then ⟨'\n', line, column⟩ :: glyphs (line + 1) 0 cs
    else if isBreak c then ⟨c, line, column⟩ :: glyphs (line + 1) 0 cs
    else ⟨c, line, column⟩ :: glyphs line (column + 1) cs

def stream? (text : String) : Option (List Glyph) :=
  if text.toList.all isPrintable then some (glyphs 0 0 text.toList) else none

/-- The character `n` places ahead. -/
def peek (rest : List Glyph) (n : Nat) : Char := (rest[n]?.map Glyph.char).getD endMark

def lineOf (rest : List Glyph) : Nat := (rest.head?.map Glyph.line).getD 0

def columnOf (rest : List Glyph) : Nat := (rest.head?.map Glyph.column).getD 0

def chars (rest : List Glyph) : List Char := rest.map Glyph.char

/-- The longest start whose characters satisfy `p`, and the rest. -/
def spanChars (p : Char → Bool) (rest : List Glyph) : List Char × List Glyph :=
  (chars (rest.takeWhile fun g => p g.char), rest.dropWhile fun g => p g.char)

def skipChars (p : Char → Bool) (rest : List Glyph) : List Glyph := rest.dropWhile fun g => p g.char

/-- `---` or `...` at the start of a line, followed by space. -/
def isDocumentMark (mark : Char) (rest : List Glyph) : Bool :=
  columnOf rest = 0 && peek rest 0 = mark && peek rest 1 = mark && peek rest 2 = mark && isSpace (peek rest 3)

def atDocumentMark (rest : List Glyph) : Bool := isDocumentMark '-' rest || isDocumentMark '.' rest

end WorkflowCatalog.Yaml
