import WorkflowCatalog.Text.Split

/-!
# Arguments

A command has options and words, or subcommands instead of words. An option may stand anywhere; after `--`
everything is a word. Reading a level ends at its subcommand, whose arguments are read by themselves.
-/
namespace WorkflowCatalog.CommandLine

/-- What an option takes: nothing, any number of times; nothing, once; a text; or a path, which is not empty. -/
inductive Kind | count | flag | text | path
deriving DecidableEq, Repr

def Kind.takesValue (k : Kind) : Bool := k = .text || k = .path

structure Switch where
  name : String
  letter : Option Char
  kind : Kind
deriving DecidableEq, Repr

/-- The arguments of one command, without those of its subcommands. Its name begins with those around it. -/
structure Level where
  name : String
  switches : List Switch
  words : List Kind
  subcommands : List String
deriving DecidableEq, Repr

/-- Why there is nothing to run: the arguments are wrong, or they ask for help or for the version of a command. -/
inductive Refusal | usage | help | version (command : String)
deriving DecidableEq, Repr

/-- The arguments given to one command: options by name, and words in their order. -/
structure Given where
  options : List (String × String)
  words : List String
deriving DecidableEq, Repr

/-- What is still to come, and how it is read. -/
inductive Mode | free | value (s : Switch) | wordsOnly
deriving DecidableEq, Repr

namespace Given

def empty : Given := ⟨[], []⟩

def option? (g : Given) (name : String) : Option String := g.options.lookup name

def has (g : Given) (name : String) : Bool := (g.option? name).isSome

/-- Only an option that is counted may be given twice. -/
def addOption (g : Given) (s : Switch) (value : String) : Except Refusal Given :=
  if (g.has s.name && s.kind ≠ .count) || (s.kind = .path && value.isEmpty) then .error .usage
  else .ok { g with options := g.options ++ [(s.name, value)] }

def addWord (g : Given) (l : Level) (word : String) : Except Refusal Given :=
  match l.words[g.words.length]? with
  | some kind => if kind = .path && word.isEmpty then .error .usage else .ok { g with words := g.words ++ [word] }
  | none => .error .usage

end Given

/-- An option by its name, and its value if that follows an equality sign. -/
def long (l : Level) (g : Given) (arg : List Char) : Except Refusal (Given × Mode) := do
  let (name, value) := Text.cutAt '=' arg
  let name := String.ofList name
  if name = "help" ∨ name = "version" then
    throw (if value.isSome then .usage else if name = "help" then .help else .version l.name)
  match l.switches.find? fun s => s.name == name, value with
  | none, _ => throw .usage
  | some s, none => if s.kind.takesValue then return (g, .value s) else return (← g.addOption s "", .free)
  | some s, some v => if s.kind.takesValue then return (← g.addOption s (String.ofList v), .free) else throw .usage

/-- Options by their letters; the first that takes a value takes the rest, with or without an equality sign. -/
def letters (l : Level) (g : Given) : List Char → Except Refusal (Given × Mode)
  | [] => return (g, .free)
  | c :: rest => do
    if c = 'h' then throw .help
    if c = 'V' then throw (.version l.name)
    match l.switches.find? fun s => s.letter == some c with
    | none => throw .usage
    | some s =>
      if s.kind.takesValue then
        match rest with
        | [] => return (g, .value s)
        | '=' :: v => return (← g.addOption s (String.ofList v), .free)
        | v => return (← g.addOption s (String.ofList v), .free)
      else letters l (← g.addOption s "") rest

/-- A single dash is no option. -/
def isOption (arg : List Char) : Bool :=
  match arg with
  | '-' :: _ :: _ => true
  | _ => false

/-- Reads the arguments of one command, up to a subcommand with its own arguments. -/
def read (l : Level) (g : Given) : Mode → List String → Except Refusal (Given × Option (String × List String))
  | .value _, [] => .error .usage
  | _, [] => .ok (g, none)
  | .value s, arg :: rest => do
    if isOption arg.toList then throw .usage
    read l (← g.addOption s arg) .free rest
  | .wordsOnly, arg :: rest => do read l (← g.addWord l arg) .wordsOnly rest
  | .free, arg :: rest => do
    if l.subcommands.contains arg then return (g, some (arg, rest))
    match arg.toList with
    | ['-', '-'] => read l g .wordsOnly rest
    | '-' :: '-' :: name => do
      let (g, mode) ← long l g name
      read l g mode rest
    | cs =>
      if isOption cs then
        let (g, mode) ← letters l g (cs.drop 1)
        read l g mode rest
      else read l (← g.addWord l arg) .free rest

end WorkflowCatalog.CommandLine
