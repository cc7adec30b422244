import WorkflowCatalog.CommandLine.Arguments
import WorkflowCatalog.Webhook

/-!
# Invocations

The commands with their arguments. Some options stand at every level: an inner level goes before an outer
one, and either before a variable of the environment.
-/
namespace WorkflowCatalog.CommandLine

inductive Shell | bash | elvish | fish | powershell | zsh
deriving DecidableEq, Repr

namespace Shell

def name : Shell → String
  | bash => "bash"
  | elvish => "elvish"
  | fish => "fish"
  | powershell => "powershell"
  | zsh => "zsh"

def all : List Shell := [bash, elvish, fish, powershell, zsh]

end Shell

inductive EventSource
  | arguments (e : WebhookEvent)
  | file (path : String)
deriving DecidableEq, Repr

inductive Command
  | event (source : EventSource) (snapshot : Option String)
  | refresh (repository username snapshot : String)
  | refreshVersion (repository : String) (entry : Option String) (version username snapshot : String)
  | validateManifest (path : String)
  | list (asJson : Bool)
  | entry (path : String) (asJson : Bool)
  | freeze (path version : String)
  | addUser (username : String)
  | listUsers
  | completions (shell : Shell)
deriving DecidableEq, Repr

/-- A command with the configuration file and the data directory that were asked for. -/
structure Invocation where
  settingsFile : Option String
  dataDirectory : Option String
  command : Command
deriving DecidableEq, Repr

/-- Options of every level. -/
def everywhere : List Switch :=
  [⟨"verbose", some 'v', .count⟩, ⟨"quiet", some 'q', .flag⟩, ⟨"config", some 'c', .path⟩,
    ⟨"data-dir", none, .path⟩, ⟨"no-color", none, .flag⟩]

def userSwitch : Switch := ⟨"user", some 'u', .text⟩

def snapshotSwitch : Switch := ⟨"snapshot", some 's', .path⟩

def program : String := "workflow-sync"

def versionLine (command : String) : String := command ++ " 0.1.0"

def leaf (name : String) (switches : List Switch) (words : List Kind) : Level :=
  ⟨program ++ "-" ++ name, everywhere ++ switches, words, []⟩

def topLevel : Level :=
  ⟨program, everywhere, [], ["push", "delete", "refresh", "refresh-version", "validate-manifest", "show", "freeze",
    "user", "completions", "help"]⟩

def userLevel : Level := ⟨program ++ "-user", everywhere, [], ["add", "list", "help"]⟩

def eventLevel (name : String) : Level :=
  leaf name [userSwitch, ⟨"installation-id", none, .text⟩, ⟨"event-file", none, .path⟩, snapshotSwitch]
    [.text, .text]

def refreshLevel : Level := leaf "refresh" [userSwitch, snapshotSwitch] [.text]

def refreshVersionLevel : Level :=
  leaf "refresh-version" [⟨"entry", none, .text⟩, userSwitch, snapshotSwitch] [.text, .text]

def showLevel : Level := leaf "show" [⟨"json", none, .flag⟩] [.text]

/-- What has been read so far, the levels from the outermost. -/
structure Parsed where
  levels : List Given
  command : Command

/-- Reads the arguments of a command without subcommands. -/
def readLeaf (l : Level) (args : List String) (make : Given → Option Command) : Except Refusal Parsed := do
  let (g, _) ← read l .empty .free args
  match make g with
  | some c => return ⟨[g], c⟩
  | none => throw .usage

/-- An event is told in full by the arguments, or it is in a file. -/
def eventOf? (type : EventType) (g : Given) : Option Command :=
  match g.option? "event-file", g.words, g.option? "user" with
  | some path, [], none => some (.event (.file path) (g.option? "snapshot"))
  | none, [repository, reference], some user =>
    some (.event (.arguments ⟨repository, reference, user, (g.option? "installation-id").getD "0", type⟩)
      (g.option? "snapshot"))
  | _, _, _ => none

def refreshOf? (g : Given) : Option Command :=
  match g.words, g.option? "user", g.option? "snapshot" with
  | [repository], some user, some snapshot => some (.refresh repository user snapshot)
  | _, _, _ => none

def refreshVersionOf? (g : Given) : Option Command :=
  match g.words, g.option? "user", g.option? "snapshot" with
  | [repository, version], some user, some snapshot =>
    some (.refreshVersion repository (g.option? "entry") version user snapshot)
  | _, _, _ => none

def showOf? (g : Given) : Option Command :=
  match g.words with
  | [] => some (.list (g.has "json"))
  | path :: _ => some (.entry path (g.has "json"))

/-- Whether there is such a command to be told about. -/
def isHelpTopic : List String → Bool
  | [] => true
  | [name] => topLevel.subcommands.contains name
  | ["user", name] => userLevel.subcommands.contains name
  | _ => false

def help {α : Type} (topic : List String) : Except Refusal α :=
  .error (if isHelpTopic topic then .help else .usage)

def readUser (args : List String) : Except Refusal Parsed := do
  let (g, next) ← read userLevel .empty .free args
  let p ← match next with
    | some ("add", rest) => readLeaf (leaf "user-add" [] [.text]) rest fun g => g.words.head?.map .addUser
    | some ("list", rest) => readLeaf (leaf "user-list" [] []) rest fun _ => some .listUsers
    | some ("help", rest) => help ("user" :: rest)
    | _ => throw .usage
  return { p with levels := g :: p.levels }

def readCommand (name : String) (args : List String) : Except Refusal Parsed :=
  match name with
  | "push" => readLeaf (eventLevel name) args (eventOf? .push)
  | "delete" => readLeaf (eventLevel name) args (eventOf? .delete)
  | "refresh" => readLeaf refreshLevel args refreshOf?
  | "refresh-version" => readLeaf refreshVersionLevel args refreshVersionOf?
  | "validate-manifest" =>
    readLeaf (leaf name [] [.path]) args fun g => some (.validateManifest (g.words.head?.getD ".dockstore.yml"))
  | "show" => readLeaf showLevel args showOf?
  | "freeze" => readLeaf (leaf name [] [.text, .text]) args fun g =>
    match g.words with
    | [path, version] => some (.freeze path version)
    | _ => none
  | "user" => readUser args
  | "completions" => readLeaf (leaf name [] [.text]) args fun g =>
    (g.words.head?.bind fun w => Shell.all.find? fun s => s.name == w).map .completions
  | "help" => help args
  | _ => .error .usage

def settingsVariable : String := "WORKFLOW_SYNC_CONFIG"

def dataVariable : String := "WORKFLOW_SYNC_DATA_DIR"

def colorVariable : String := "NO_COLOR"

/-- Whether the variables that stand in for options are right for those that a level does not give. -/
def variablesFit (environment : List (String × String)) (g : Given) : Bool :=
  let fits (option name : String) (isRight : String → Bool) : Bool :=
    g.has option || (environment.lookup name).all isRight
  fits "config" settingsVariable (!·.isEmpty) && fits "data-dir" dataVariable (!·.isEmpty) &&
    fits "no-color" colorVariable fun v => v = "true" || v = "false"

/-- The innermost value of an option, or else that of its variable. -/
def everywhereOption? (environment : List (String × String)) (levels : List Given) (option name : String) :
    Option String :=
  match levels.reverse.findSome? fun g => g.option? option with
  | some v => some v
  | none => environment.lookup name

def Invocation.ofArguments (environment : List (String × String)) (args : List String) :
    Except Refusal Invocation := do
  let (g, next) ← read topLevel .empty .free args
  match next with
  | none => throw .usage
  | some (name, rest) =>
    let p ← readCommand name rest
    let levels := g :: p.levels
    if !levels.all (variablesFit environment) then throw .usage
    return ⟨everywhereOption? environment levels "config" settingsVariable,
      everywhereOption? environment levels "data-dir" dataVariable, p.command⟩

end WorkflowCatalog.CommandLine
