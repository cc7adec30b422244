import WorkflowCatalog.Diff
import WorkflowCatalog.Reconcile.Build

/-!
# Bringing one entry up to date

The versions of an entry are compared with those of the repository, and each change is made and saved on
its own. A version that cannot be built is left as it was; whatever stops the call leaves the changes made
before it.
-/
namespace WorkflowCatalog

/-- An entry for what a manifest declares, without versions. -/
def Entry.ofDeclaration (p : EntryPath) (d : Declaration) : Entry :=
  { Entry.new p d.kind d.language d.primaryDescriptorPath with
    defaultTestParameterPath := d.testParameterFiles.head? }

/-- The entry with the settings that the manifest states, where it states any. -/
def Entry.withSettings (e : Entry) (d : Declaration) : Entry :=
  { e with
    published := d.publish.getD e.published
    authors := if d.authors.isEmpty then e.authors else d.authors }

/-- One change to the versions of an entry. -/
inductive Change
  | build (isNew : Bool) (name : String)
  | remove (name : String)
deriving DecidableEq, Repr

def VersionDiff.changes (d : VersionDiff) : List Change :=
  d.added.map (fun r => .build true r.name) ++ d.updated.map (fun r => .build false r.name) ++ d.removed.map .remove

namespace Sync

/-- An entry as it is by now; `unsaved` tells that its settings differ from those on record. -/
structure Work where
  entry : Entry
  unsaved : Bool
  result : SyncResult
deriving DecidableEq, Repr

/-- Saves the entry and notes what was done; if the save fails, so does the call. -/
def saved (c : Context) (w : Work) (e : Entry) (r : SyncResult) : Pass Work := do
  match ← Pass.save c e with
  | none => return ⟨e, false, r⟩
  | some err => Pass.stop w.result err

/-- A version that could not be built. -/
def failed (c : Context) (w : Work) (name : String) (e : SyncError) : Pass Work := do
  let r := w.result.fail (name ++ ": " ++ e.message)
  match c.options.isolation with
  | .perVersion => return { w with result := r }
  | .failFast =>
    Pass.push r
    throw e

def noted (r : SyncResult) (isNew : Bool) (name : String) : SyncResult :=
  if isNew then { r with added := r.added ++ [name] } else { r with updated := r.updated ++ [name] }

def apply (c : Context) (sources : List VersionSource) (w : Work) : Change → Pass Work
  | .build isNew name => do
    match sources.find? fun s => s.remote.name == name with
    | none => return w
    | some s =>
      match ← Pass.attempt (Build.version c w.entry s) with
      | .ok v => saved c w (w.entry.upsert v) (noted w.result isNew v.name)
      | .error e => failed c w name e
  | .remove name => saved c w (w.entry.remove name) { w.result with removed := w.result.removed ++ [name] }

/-- Makes the changes one after the other, and looks before each whether to stop. -/
def applyAll (c : Context) (sources : List VersionSource) : Work → List Change → Pass Work
  | w, [] => return w
  | w, change :: changes => do
    if ← Pass.poll c then Pass.stop w.result .cancelled
    else
      let w ← apply c sources w change
      applyAll c sources w changes

/-- Saves settings that no version has saved along with it. A new entry is not saved without versions. -/
def finish (c : Context) (isNew : Bool) (w : Work) : Pass Unit := do
  if w.unsaved && !(isNew && w.entry.versions.isEmpty) then
    match ← Pass.save c w.entry with
    | none => Pass.push w.result
    | some err => Pass.stop w.result err
  else Pass.push w.result

/-- The entry on record, or a new one for the first source; and whether it is new. -/
def startingPoint (p : EntryPath) (existing : Option Entry) (sources : List VersionSource) :
    Option (Entry × Bool) :=
  match existing, sources with
  | some e, _ => some (e, false)
  | none, s :: _ => some (.ofDeclaration p s.declaration, true)
  | none, [] => none

/-- The entry with the settings of the first source. -/
def withSettings (e : Entry) : List VersionSource → Entry
  | [] => e
  | s :: _ => e.withSettings s.declaration

/-- Applies the difference between an entry and the listing. -/
def entry (c : Context) (p : EntryPath) (sources : List VersionSource) (listing : RemoteListing) (mode : DiffMode)
    (forced : List String) : Pass Unit := do
  let existing ← Pass.look c .entry fun s => s.entry? p
  match startingPoint p existing sources with
  | none => return ()
  | some (before, isNew) =>
    let e := withSettings before sources
    let result := SyncResult.forEntry p
    match diff e.versions listing mode forced with
    | .error err => Pass.stop result err
    | .ok d =>
      let unsaved := decide (e ≠ before)
      let result := { result with skippedFrozen := d.frozen }
      if d.isEmpty && !unsaved then
        if d.frozen.isEmpty then return () else Pass.push result
      else
        let w ← applyAll c sources ⟨e, unsaved, result⟩ d.changes
        finish c isNew w

end Sync

end WorkflowCatalog
