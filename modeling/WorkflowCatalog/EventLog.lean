import WorkflowCatalog.Decimal.Binary64
import WorkflowCatalog.Json.Printer
import WorkflowCatalog.Json.Reader
import WorkflowCatalog.SyncResult
import WorkflowCatalog.Timestamp

/-!
# The event log

Every result of a call is kept as one line of JSON with the time at which it was recorded. Reading takes
blank lines for nothing, and fails if any other line is no event.
-/
namespace WorkflowCatalog

structure RecordedEvent where
  recordedAt : Timestamp
  result : SyncResult
deriving DecidableEq, Repr

namespace SyncResult

def fields (r : SyncResult) : List (String × Json) :=
  [("entry", Json.ofOption .text r.entry), ("added", Json.ofList .text r.added),
    ("updated", Json.ofList .text r.updated), ("removed", Json.ofList .text r.removed),
    ("skipped_frozen", Json.ofList .text r.skippedFrozen), ("success", .bool r.success),
    ("message", Json.ofOption .text r.message)]

def toJson (r : SyncResult) : Json := .object r.fields

def fieldNames : List String := ["entry", "added", "updated", "removed", "skipped_frozen", "success", "message"]

def ofRecord? (r : Json.Record) : Option SyncResult := do
  return {
    entry := ← r.optional "entry" Json.text?
    added := ← r.defaulted "added" [] (Json.list? Json.text?)
    updated := ← r.defaulted "updated" [] (Json.list? Json.text?)
    removed := ← r.defaulted "removed" [] (Json.list? Json.text?)
    skippedFrozen := ← r.defaulted "skipped_frozen" [] (Json.list? Json.text?)
    success := ← r.required "success" Json.bool?
    message := ← r.optional "message" Json.text? }

end SyncResult

namespace RecordedEvent

def toJson (e : RecordedEvent) : Json := .object (("recorded_at", .text e.recordedAt.text) :: e.result.fields)

def isFinite (digits : String) : Bool :=
  let (negative, cs) := match digits.toList with
    | '-' :: rest => (true, rest)
    | cs => (false, cs)
  match Decimal.readDecimal? negative cs with
  | some (some _) => true
  | _ => false

mutual

/-- Whether a value can be held on to: its numbers are finite, its strings are texts, and it is not nested
deeper than the fuel. -/
def holdable : Nat → Json → Bool
  | _, .number digits => isFinite digits
  | _, .unpaired => false
  | fuel + 1, .array items => allHoldable fuel items
  | fuel + 1, .object fields => fieldsHoldable fuel fields
  | 0, .array _ => false
  | 0, .object _ => false
  | _, _ => true

def allHoldable : Nat → List Json → Bool
  | _, [] => true
  | fuel, j :: js => holdable fuel j && allHoldable fuel js

def fieldsHoldable : Nat → List (String × Json) → Bool
  | _, [] => true
  | fuel, (_, j) :: fields => holdable fuel j && fieldsHoldable fuel fields

end

/-- The depth to which the values of an event may be nested, the event itself included. -/
def maxDepth : Nat := 127

/-- An event is an object; the fields of its result stand beside the time. -/
def ofJson? (j : Json) : Option RecordedEvent :=
  match j with
  | .object _ => do
    if !holdable maxDepth j then none
    let r ← j.record? ("recorded_at" :: SyncResult.fieldNames)
    return ⟨← r.required "recorded_at" fun j => j.text?.bind Timestamp.ofText?, ← SyncResult.ofRecord? r⟩
  | _ => none

end RecordedEvent

namespace EventLog

def fileName : String := "events.jsonl"

def filePath (directory : String) : String := directory ++ "/" ++ fileName

def line (e : RecordedEvent) : String := e.toJson.oneLine ++ "\n"

/-- The text of the log with one more event. -/
def append (log : String) (e : RecordedEvent) : String := log ++ line e

/-- The events of a log. -/
def read? (log : String) : Option (List RecordedEvent) :=
  ((Text.lines log.toList).filter fun l => !(Text.trim l).isEmpty).mapM fun l =>
    (Json.read? (String.ofList l)).bind RecordedEvent.ofJson?

end EventLog

end WorkflowCatalog
