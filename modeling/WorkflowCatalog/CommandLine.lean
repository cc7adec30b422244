import WorkflowCatalog.CommandLine.Display
import WorkflowCatalog.CommandLine.Invocation
import WorkflowCatalog.EventLog
import WorkflowCatalog.Reconcile
import WorkflowCatalog.Settings
import WorkflowCatalog.Snapshot.Document
import WorkflowCatalog.Store.Disk

/-!
# Running commands

A command reads files, may run a call of reconciliation on the catalog of the data directory, and shows what
came of it. How files are read and written is given from outside.
-/
namespace WorkflowCatalog.CommandLine

/-- What is found under a path. -/
inductive Found | nothing | unreadable | text (t : String)
deriving DecidableEq, Repr

structure Files (m : Type → Type) where
  read : (path : String) → m Found
  /-- The step at which a save to that directory would fail by now. -/
  saveFault : (directory : String) → m (Option SaveFault)
  replace : (path text : String) → m Unit
  append : (path text : String) → m Unit

/-- What commands work with. -/
structure Session (m : Type → Type) where
  files : Files m
  environment : List (String × String)
  now : Timestamp

/-- What a command shows, and what it failed of. -/
structure Reply where
  lines : List String
  failure : Option String
deriving DecidableEq, Repr

/-- Shows lines while it goes on, and may fail with a message. -/
abbrev Job (m : Type → Type) := ExceptT String (StateT (List String) m)

variable {m : Type → Type} [Monad m]

namespace Job

def ofExcept {α : Type} (r : Except String α) : Job m α := ExceptT.mk (pure r)

def await {α : Type} (a : m α) : Job m α := ExceptT.lift (StateT.lift a)

def print (lines : List String) : Job m Unit := modify (· ++ lines)

def reply (j : Job m Unit) : m Reply := do
  let (r, lines) ← (j.run.run [] : m (Except String Unit × List String))
  return ⟨lines, match r with | .ok () => none | .error message => some message⟩

end Job

namespace Session

/-- The text of a file that must be there. -/
def readText (s : Session m) (path failure : String) : Job m String := do
  match ← Job.await (s.files.read path) with
  | .text t => return t
  | _ => throw failure

def openCatalog (s : Session m) (directory : String) : Job m DiskCatalog := do
  let failure := "Failed to open catalog in " ++ directory
  let file ← match ← Job.await (s.files.read (DiskCatalog.filePath directory)) with
    | .nothing => pure none
    | .unreadable => throw failure
    | .text t => pure (some t)
  match DiskCatalog.load directory file with
  | .ok c => return c
  | .error _ => throw failure

/-- Puts the document of a catalog that was saved into its place. -/
def replaceFile (s : Session m) (c : DiskCatalog) : Job m Unit :=
  match c.file with
  | some t => Job.await (s.files.replace (DiskCatalog.filePath c.directory) t)
  | none => return ()

def saveCatalog (s : Session m) (c : DiskCatalog) : Job m Unit := do
  s.replaceFile (← Job.ofExcept (c.save (← Job.await (s.files.saveFault c.directory))))

/-- Saves entries one after the other. If one cannot be saved, yields how many were saved before it, and the failure. -/
def saveEntries (s : Session m) (c : DiskCatalog) : List Entry → Job m (Option (Nat × SyncError))
  | [] => return none
  | e :: es => do
    match c.saveEntry e (← Job.await (s.files.saveFault c.directory)) with
    | (_, some err) => return some (0, err)
    | (saved, none) =>
      s.replaceFile saved
      return (← s.saveEntries saved es).map fun (made, err) => (made + 1, err)

/-- The snapshot of a file, or one without repositories. -/
def openSnapshot (s : Session m) (path : Option String) : Job m Snapshot := do
  match path with
  | none => return .empty
  | some path =>
    let failure := "Failed to load snapshot " ++ path
    match Snapshot.read? (← s.readText path failure) with
    | some snapshot => return snapshot
    | none => throw failure

def openEvent (s : Session m) : EventSource → Job m WebhookEvent
  | .arguments e => return e
  | .file path => do
    match WebhookEvent.read? (← s.readText path ("Failed to read " ++ path)) with
    | some e => return e
    | none => throw ("Failed to parse event " ++ path)

/-- No call is cancelled, and nothing of the catalog fails. -/
def world (snapshot : Snapshot) : World where
  remote := snapshot.remote
  cancelled := fun _ => false
  saveFault := fun _ => none
  lookupFault := fun _ => none
  records := fun _ => true

/-- Shows how a call ended, and fails if the call did. -/
def report (o : Outcome) : Job m Unit := do
  Job.print (o.results.flatMap resultLines)
  if !o.isDone then
    match o.failure? with
    | some message => throw ("Reconciliation failed: " ++ message)
    | none => throw "Reconciliation failed"

/-- Runs a call on a catalog and saves what it saves, one entry after the other. What comes before a save does not
depend on whether it fails, so the call is run once to know its saves, and again if one of them has failed. -/
def runCall (s : Session m) (catalog : DiskCatalog) (c : Context) (call : Call) : Job m Outcome := do
  let o := Reconcile.run c catalog.store call
  match ← s.saveEntries catalog o.log.saves with
  | none => return o
  | some (made, err) => return Reconcile.run (c.failingAfter made err) catalog.store call

/-- Adds the results of a call to the log of events, where its directory can be had. -/
def record (s : Session m) (directory : String) (o : Outcome) : Job m Unit := do
  if (← Job.await (s.files.saveFault directory)) ≠ some .directory then
    o.recorded.forM fun r => Job.await (s.files.append (EventLog.filePath directory) (EventLog.line ⟨s.now, r⟩))

def reconcile (s : Session m) (settings : Settings) (snapshotPath : Option String) (call : Call) : Job m Unit := do
  let snapshot ← s.openSnapshot snapshotPath
  let catalog ← s.openCatalog settings.dataDirectory
  let o ← s.runCall catalog ⟨world snapshot, settings.options, Language.all, s.now⟩ call
  s.record settings.dataDirectory o
  report o

def validateManifest (s : Session m) (path : String) : Job m Unit := do
  match Manifest.parse (← s.readText path ("Failed to read " ++ path)) with
  | .ok manifest => Job.print (manifestLines path manifest)
  | .error e => throw e.toSyncError.message

def entryPath (path : String) : Except String EntryPath :=
  match EntryPath.ofText? path with
  | some p => .ok p
  | none => .error ("Invalid entry path: " ++ path ++ " (expected host/org/repo[/name])")

def foundEntry (c : DiskCatalog) (p : EntryPath) (path : String) : Except String Entry :=
  match c.store.entry? p with
  | some e => .ok e
  | none => .error ("Entry not found: " ++ path)

def list (s : Session m) (directory : String) (asJson : Bool) : Job m Unit := do
  let c ← s.openCatalog directory
  Job.print (if asJson then [(Json.ofList Entry.toJson c.store.entries).pretty] else listLines c.store.entries)

def entry (s : Session m) (directory path : String) (asJson : Bool) : Job m Unit := do
  let c ← s.openCatalog directory
  let e ← Job.ofExcept (foundEntry c (← Job.ofExcept (entryPath path)) path)
  Job.print (if asJson then [e.toJson.pretty] else entryLines e)

def freeze (s : Session m) (directory path version : String) : Job m Unit := do
  let p ← Job.ofExcept (entryPath path)
  let c ← s.openCatalog directory
  let e ← Job.ofExcept (foundEntry c p path)
  match e.version? version with
  | none => throw ("Version " ++ version ++ " not found in " ++ path)
  | some v =>
    if v.frozen then Job.print [path ++ "@" ++ version ++ " is already frozen"]
    else
      s.saveCatalog { c with store := c.store.replace (e.freeze v) }
      Job.print ["Froze " ++ path ++ "@" ++ version]

def addUser (s : Session m) (directory username : String) : Job m Unit := do
  let c ← s.openCatalog directory
  if c.store.hasUser username then Job.print ["User already exists: " ++ username]
  else
    s.saveCatalog (c.addUser s.now username)
    Job.print ["Added user: " ++ username]

def listUsers (s : Session m) (directory : String) : Job m Unit := do
  Job.print (userLines (← s.openCatalog directory).store.users)

def command (s : Session m) (settings : Settings) : Command → Job m Unit
  | .event source snapshot => do s.reconcile settings snapshot (.event (← s.openEvent source))
  | .refresh repository username snapshot => s.reconcile settings (some snapshot) (.refresh repository username)
  | .refreshVersion repository entry version username snapshot =>
    s.reconcile settings (some snapshot) (.refreshVersion repository entry version username)
  | .validateManifest path => s.validateManifest path
  | .list asJson => s.list settings.dataDirectory asJson
  | .entry path asJson => s.entry settings.dataDirectory path asJson
  | .freeze path version => s.freeze settings.dataDirectory path version
  | .addUser username => s.addUser settings.dataDirectory username
  | .listUsers => s.listUsers settings.dataDirectory
  | .completions _ => return ()

/-- A directory of the platform for this program: under the variable if that is absolute, or else under home. -/
def platformDirectory? (s : Session m) (name below : String) : Option String :=
  match (s.environment.lookup name).filter Path.isAbsolute, (s.environment.lookup "HOME").filter (!·.isEmpty) with
  | some d, _ => some (d ++ "/workflow-sync")
  | none, some home => some (home ++ "/" ++ below ++ "/workflow-sync")
  | none, none => none

def defaultDataDirectory (s : Session m) : String :=
  (s.platformDirectory? "XDG_DATA_HOME" ".local/share").getD ".workflow-sync"

/-- The text of a configuration file, whose name may lack its ending. -/
def settingsText? (s : Session m) (path : String) : Job m (Option String) := do
  match ← Job.await (s.files.read path) with
  | .text t =>
    if Text.endsWith ".toml".toList path.toList then return some t else throw SettingsError.unreadable.message
  | _ =>
    match ← Job.await (s.files.read (path ++ ".toml")) with
    | .text t => return some t
    | _ => return none

/-- The settings: a configuration file that was asked for must be there. -/
def settings (s : Session m) (i : Invocation) : Job m Settings := do
  let text ← match i.settingsFile, s.platformDirectory? "XDG_CONFIG_HOME" ".config" with
    | some path, _ =>
      match ← s.settingsText? path with
      | some t => pure (some t)
      | none => throw SettingsError.unreadable.message
    | none, some directory => s.settingsText? (directory ++ "/config.toml")
    | none, none => pure none
  match Settings.load s.defaultDataDirectory text s.environment with
  | .ok settings => return { settings with dataDirectory := i.dataDirectory.getD settings.dataDirectory }
  | .error e => throw e.message

end Session

/-- Runs an invocation. -/
def run (s : Session m) (i : Invocation) : m Reply := Job.reply do s.command (← s.settings i) i.command

end WorkflowCatalog.CommandLine
