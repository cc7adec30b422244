import WorkflowCatalog.Reconcile.Options
import WorkflowCatalog.Remote
import WorkflowCatalog.Store
import WorkflowCatalog.SyncResult

/-!
# What a call works with

A call reads a remote, changes the catalog and can be cancelled. All of that is given by a world: how the
remote answers, when saves and look-ups fail, and when the call is cancelled. What happens is kept in a
log. Whether a save fails and whether the call is cancelled may depend on what went before; the remote
answers the same all through a call, and so do look-ups.
-/
namespace WorkflowCatalog

/-- What a call does for others to see: it asks the remote, looks whether it is cancelled, and saves. -/
inductive Action
  | list (repository : String)
  | fetch (repository reference path : String)
  | poll
  | save (e : Entry)
  | failedSave (e : Entry)
deriving DecidableEq, Repr

/-- The actions so far, the latest first. -/
abbrev Log := List Action

/-- The entry that an action has put in the catalog. -/
def Action.saved? : Action → Option Entry
  | save e => some e
  | list _ | fetch _ _ _ | poll | failedSave _ => none

/-- All entries that were put in the catalog, the earliest first. -/
def Log.saves (log : Log) : List Entry := log.reverse.filterMap Action.saved?

@[simp] theorem Log.saves_cons (a : Action) (log : Log) : saves (a :: log) = saves log ++ a.saved?.toList := by
  cases h : a.saved? <;> simp [saves, h]

/-- The ways of looking something up in the catalog. -/
inductive Lookup | entry | entriesForRepository | user
deriving DecidableEq, Repr

/-- The world around a call. -/
structure World where
  remote : Remote
  cancelled : Log → Bool
  saveFault : Log → Option SyncError
  lookupFault : Lookup → Option SyncError
  records : SyncResult → Bool

structure Context where
  world : World
  options : Options
  languages : List Language
  now : Timestamp

/-- The same, but that the save fails which comes after so many others. -/
def Context.failingAfter (c : Context) (made : Nat) (err : SyncError) : Context :=
  { c with world := { c.world with saveFault := fun log => if log.saves.length = made then some err else none } }

/-- What a call has done so far. -/
structure Progress where
  store : Store
  log : Log
  results : List SyncResult
deriving DecidableEq, Repr

/-- Reading the remote. -/
abbrev Fetch := ExceptT SyncError (StateM Log)

/-- A part of a call; what was done before a failure stays done. -/
abbrev Pass := ExceptT SyncError (StateM Progress)

namespace Fetch

def ofExcept {α : Type} (r : Except SyncError α) : Fetch α := ExceptT.mk (pure r)

/-- The versions that the remote lists. -/
def list (c : Context) (repository : String) : Fetch (List RemoteVersion) := do
  modify (Action.list repository :: ·)
  ofExcept (c.world.remote.list repository)

def describe (c : Context) (repository reference : String) : Fetch (Option RemoteVersion) := do
  return (← list c repository).find? fun v => v.name == reference

def file (c : Context) (repository reference path : String) : Fetch (Option ByteArray) := do
  modify (Action.fetch repository reference path :: ·)
  ofExcept (c.world.remote.file repository reference path)

def text (c : Context) (repository reference path : String) : Fetch (Option String) := do
  return (← file c repository reference path).map Text.ofBytes

/-- The text of the manifest, if there is one. -/
def manifestText (c : Context) (repository reference : String) : Fetch (Option String) :=
  text c repository reference Manifest.path

end Fetch

namespace Pass

def ofExcept {α : Type} (r : Except SyncError α) : Pass α := ExceptT.mk (pure r)

/-- Reads the remote; a failure is handed over as a value. -/
def attempt {α : Type} (f : Fetch α) : Pass (Except SyncError α) := do
  let p ← get
  let (r, log) := f.run p.log
  set { p with log := log }
  return r

/-- Reads the remote, and fails if that does. -/
def read {α : Type} (f : Fetch α) : Pass α := do ofExcept (← attempt f)

/-- Whether the call has been cancelled. -/
def poll (c : Context) : Pass Bool := do
  modify fun p => { p with log := .poll :: p.log }
  return c.world.cancelled (← get).log

/-- Looks into the catalog. -/
def look {α : Type} (c : Context) (l : Lookup) (f : Store → α) : Pass α := do
  match c.world.lookupFault l with
  | some e => throw e
  | none => return f (← get).store

/-- Saves an entry; yields what went wrong, in which case the catalog is as it was. -/
def save (c : Context) (e : Entry) : Pass (Option SyncError) := do
  let p ← get
  match c.world.saveFault p.log with
  | some err =>
    set { p with log := .failedSave e :: p.log }
    return some err
  | none =>
    set { p with store := p.store.save e, log := .save e :: p.log }
    return none

def push (r : SyncResult) : Pass Unit := modify fun p => { p with results := p.results ++ [r] }

/-- Gives up the call, but first hands in what is known of the entry at hand. -/
def stop {α : Type} (r : SyncResult) (e : SyncError) : Pass α := do
  push (r.fail e.message)
  throw e

end Pass

end WorkflowCatalog
