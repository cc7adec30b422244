import WorkflowCatalog.Descriptor.Basic
import WorkflowCatalog.Descriptor.Statement

/-!
# WDL

A descriptor has a workflow or a task block. A line that starts with `import` and a quoted path refers to
another file.
-/
namespace WorkflowCatalog.Wdl

open Statement

def isNameStart (c : Char) : Bool := Text.isLetter c || c = '_'

def isNameChar (c : Char) : Bool := isNameStart c || Text.isDigit c

/-- The head of a block: its keyword, its name and the opening brace. -/
def block? (cs : List Char) : Option (Unit × List Char) := do
  let start := blanks cs
  let rest ← (Text.dropMark? "workflow".toList start).orElse fun _ => Text.dropMark? "task".toList start
  match ← someBlanks? rest with
  | c :: more =>
    if !isNameStart c then none
    match blanks (more.dropWhile isNameChar) with
    | '{' :: rest => return ((), rest)
    | _ => none
  | [] => none

/-- The path that a line imports. -/
def importOf? (line : List Char) : Option String := do
  let rest ← Text.dropMark? "import".toList (blanks line)
  let (path, _) ← quoted? (← someBlanks? rest)
  return String.ofList (Text.trim path)

def check (content : String) : Except DescriptorError Unit := do
  if (Text.trim content.toList).isEmpty then throw .emptyDescriptor
  Braces.checked "#" content
  if (atLines block? content).isEmpty then throw .noBlock

def imports (content : String) : List ImportRef :=
  ((Text.lines content.toList).filterMap importOf?).map fun p => ⟨p, .wdl⟩

end WorkflowCatalog.Wdl
