import WorkflowCatalog.Reconcile.Sync
import WorkflowCatalog.Webhook

/-!
# Reconciliation

A call handles a webhook event, brings a whole repository up to date, or rebuilds one version. Every call
ends with results, all of which are handed to the recorder.
-/
namespace WorkflowCatalog

inductive Call
  | event (e : WebhookEvent)
  | refresh (repository username : String)
  | refreshVersion (repository : String) (entry : Option String) (version username : String)
deriving DecidableEq, Repr

/-- Everything that came of a call. -/
structure Outcome where
  store : Store
  log : Log
  results : List SyncResult
  recorded : List SyncResult
deriving DecidableEq, Repr

namespace Outcome

/-- Whether the call did all that it set out to do. -/
def isDone (o : Outcome) : Bool := o.results.all (·.success)

/-- The first message of a failure. -/
def failure? (o : Outcome) : Option String :=
  (o.results.filter fun r => !r.success).findSome? SyncResult.message

end Outcome

namespace Reconcile

def checkUser (c : Context) (username : String) : Pass Unit := do
  if ← Pass.look c .user fun s => s.hasUser username then return ()
  else throw (.unknownUser username)

def repositoryPath (repository : String) : Except SyncError EntryPath :=
  match EntryPath.ofRepository? repository none with
  | some p => .ok p
  | none => .error (.invalidReference ("repository must be org/repo, got " ++ repository))

def notFound (repository reference : String) : SyncError :=
  .remoteFetch repository reference "reference" "not found on remote"

/-- The listed version of that name, which must be there. -/
def listed (c : Context) (repository reference : String) : Pass RemoteVersion := do
  match ← Pass.read (Fetch.describe c repository reference) with
  | some v => return v
  | none => throw (notFound repository reference)

/-- The manifest and its text, which must be there and be right. -/
def manifest (c : Context) (repository reference : String) : Pass (String × Manifest) := do
  match ← Pass.read (Fetch.manifestText c repository reference) with
  | none => throw (.invalidManifest ("no " ++ Manifest.path ++ " at " ++ reference))
  | some text =>
    match Manifest.parse text with
    | .ok m => return (text, m)
    | .error e => throw e.toSyncError

/-- Brings the entries of a manifest up to date with one version, those that accept it. -/
def pushEntries (c : Context) (repository : EntryPath) (text : String) (v : RemoteVersion) :
    List Declaration → Pass Unit
  | [] => return ()
  | d :: ds => do
    if d.filters.accepts v.referenceType v.name then
      Sync.entry c { repository with name := d.name } [⟨v, d, text⟩] (.ofVersions [v]) .push []
      pushEntries c repository text v ds
    else pushEntries c repository text v ds

def push (c : Context) (e : WebhookEvent) : Pass Unit := do
  let reference ← Pass.ofExcept (GitReference.parse e.gitReference)
  checkUser c e.username
  let repository ← Pass.ofExcept (repositoryPath e.repository)
  let (text, m) ← manifest c e.repository reference.name
  let v ← listed c e.repository reference.name
  pushEntries c repository text { v with referenceType := reference.type } m.entries

/-- Removes the version from each entry that has it and has not frozen it. -/
def deleteFrom (c : Context) (name : String) : List Entry → Pass Unit
  | [] => return ()
  | e :: es => do
    match e.version? name with
    | none => deleteFrom c name es
    | some v =>
      let result := SyncResult.forEntry e.path
      if v.frozen then
        Pass.push { result with skippedFrozen := [name] }
        deleteFrom c name es
      else
        match ← Pass.save c (e.remove name) with
        | some err => throw err
        | none =>
          Pass.push { result with removed := [name] }
          deleteFrom c name es

def delete (c : Context) (e : WebhookEvent) : Pass Unit := do
  let reference ← Pass.ofExcept (GitReference.parse e.gitReference)
  checkUser c e.username
  let repository ← Pass.ofExcept (repositoryPath e.repository)
  let entries ← Pass.look c .entriesForRepository fun s => s.forRepository repository
  deleteFrom c reference.name entries

/-- What the manifests of a listing say: the sources that were accepted, and the versions whose manifest
cannot be read. -/
structure Survey where
  sources : List VersionSource
  unreadable : List String
deriving DecidableEq, Repr

/-- What one listed version adds to a survey. -/
def surveyed (v : RemoteVersion) (manifestText : Option String) : Survey :=
  match manifestText with
  | none => ⟨[], []⟩
  | some text =>
    match Manifest.parse text with
    | .error _ => ⟨[], [v.name]⟩
    | .ok m => ⟨(m.entries.filter fun d => d.filters.accepts v.referenceType v.name).map fun d => ⟨v, d, text⟩, []⟩

/-- Reads the manifest of every listed version. -/
def survey (c : Context) (repository : String) : List RemoteVersion → Pass Survey
  | [] => return ⟨[], []⟩
  | v :: vs => do
    let first := surveyed v (← Pass.read (Fetch.manifestText c repository v.name))
    let rest ← survey c repository vs
    return ⟨first.sources ++ rest.sources, first.unreadable ++ rest.unreadable⟩

namespace Survey

/-- The sources of the entry of that name. -/
def sourcesOf (s : Survey) (name : Option String) : List VersionSource :=
  s.sources.filter fun v => v.declaration.name == name

def listingOf (s : Survey) (name : Option String) : RemoteListing :=
  ⟨(s.sourcesOf name).map VersionSource.remote, true, s.unreadable⟩

/-- The names of all entries that are declared or on record, in order; no name comes first. -/
def names (s : Survey) (existing : List Entry) : List (Option String) :=
  Ascending.lastOf Option.toList (s.sources.map (·.declaration.name) ++ existing.map (·.path.name))

end Survey

def refreshEntries (c : Context) (repository : EntryPath) (s : Survey) : List (Option String) → Pass Unit
  | [] => return ()
  | name :: names => do
    Sync.entry c { repository with name := name } (s.sourcesOf name) (s.listingOf name) .fullSync []
    refreshEntries c repository s names

def refresh (c : Context) (repository username : String) : Pass Unit := do
  checkUser c username
  let path ← Pass.ofExcept (repositoryPath repository)
  let versions ← Pass.read (Fetch.list c repository)
  let s ← survey c repository versions
  let existing ← Pass.look c .entriesForRepository fun s => s.forRepository path
  refreshEntries c path s (s.names existing)

def undeclared (entry : Option String) (version : String) : SyncError :=
  .invalidManifest ("no entry named " ++ entry.getD "<unnamed>" ++ " is declared at " ++ version)

def refreshVersion (c : Context) (repository : String) (entry : Option String) (version username : String) :
    Pass Unit := do
  checkUser c username
  let path ← Pass.ofExcept (repositoryPath repository)
  let v ← listed c repository version
  let (text, m) ← manifest c repository version
  match m.entry? entry with
  | none => throw (undeclared entry version)
  | some d => Sync.entry c { path with name := entry } [⟨v, d, text⟩] (.ofVersions [v]) .push [version]

def pass (c : Context) : Call → Pass Unit
  | .event e => match e.type with
    | .push => push c e
    | .delete => delete c e
  | .refresh repository username => refresh c repository username
  | .refreshVersion repository entry version username => refreshVersion c repository entry version username

/-- The results with what ended the call, unless one of them tells already; there is always one. -/
def closed (status : Except SyncError Unit) (results : List SyncResult) : List SyncResult :=
  match status with
  | .error e => if results.all (·.success) then results ++ [.callFailure e.message] else results
  | .ok () => if results.isEmpty then [.nothing] else results

/-- Runs a call on a catalog. -/
def run (c : Context) (s : Store) (call : Call) : Outcome :=
  let (status, p) := ((pass c call).run.run ⟨s, [], []⟩ : Except SyncError Unit × Progress)
  let results := closed status p.results
  ⟨p.store, p.log, results, results.filter c.world.records⟩

end Reconcile

end WorkflowCatalog
