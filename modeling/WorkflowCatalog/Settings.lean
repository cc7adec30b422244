import WorkflowCatalog.Reconcile.Options
import WorkflowCatalog.Settings.Layer
import WorkflowCatalog.Toml.Reader

/-!
# Settings

Built-in values come first, over them what the configuration file says, and over both the variables of the
environment whose names start with `WORKFLOW_SYNC_`. Values are converted where that can be done.
-/
namespace WorkflowCatalog

inductive SettingsError | unreadable | invalid
deriving DecidableEq, Repr

def SettingsError.message : SettingsError → String
  | unreadable => "Failed to read configuration"
  | invalid => "Invalid configuration"

structure Settings where
  dataDirectory : String
  logLevel : String
  options : Options
deriving DecidableEq, Repr

namespace Settings

def initial (dataDirectory : String) : Settings := ⟨dataDirectory, "info", .initial⟩

/-- The settings as a layer. -/
def toLayer (s : Settings) : List (String × Toml) :=
  [("data_dir", .text s.dataDirectory), ("log_level", .text s.logLevel),
    ("checksum_algorithm", .text s.options.algorithm.name), ("isolation", .text s.options.isolation.name),
    ("max_import_depth", .number (.int s.options.maxImportDepth))]

def text? : Toml → Option String
  | .text t => some t
  | .number n => some n.positional
  | .bool b => some (if b then "true" else "false")
  | _ => none

def natural? : List Char → Option Nat
  | '+' :: ds => Text.natural? 10 ds
  | ds => Text.natural? 10 ds

/-- A count; a truth value counts as one or zero. -/
def count? : Toml → Option Nat
  | .text t =>
    let l := lower t
    if l = "true" ∨ l = "on" ∨ l = "yes" then some 1
    else if l = "false" ∨ l = "off" ∨ l = "no" then some 0
    else (natural? t.toList).filter (· ≤ Decimal.Number.maxWord)
  | .number n => n.word?
  | .bool b => some b.toNat
  | _ => none

/-- One of several by its name, which may also be the only field of a table. -/
def choice? {α : Type} (all : List α) (name : α → String) : Toml → Option α
  | .text t => all.find? fun a => name a == lower t
  | .table [(t, _)] => all.find? fun a => name a == lower t
  | _ => none

def ofFields? (fields : List (String × Toml)) : Option Settings := do
  return {
    dataDirectory := ← text? (← fields.lookup "data_dir")
    logLevel := ← text? (← fields.lookup "log_level")
    options := {
      algorithm := ← choice? DigestAlgorithm.all DigestAlgorithm.name (← fields.lookup "checksum_algorithm")
      isolation := ← choice? Isolation.all Isolation.name (← fields.lookup "isolation")
      maxImportDepth := ← count? (← fields.lookup "max_import_depth") } }

/-- What the names of variables start with, in small letters. -/
def variableMark : List Char := "workflow_sync_".toList

/-- The variables of an environment that are settings. -/
def environmentLayer (environment : List (String × String)) : List (String × Toml) :=
  environment.filterMap fun v =>
    (Text.dropMark? variableMark (lower v.1).toList).map fun key => (String.ofList key, .text v.2)

/-- The settings that a configuration file, if there is one, and an environment make. -/
def load (dataDirectory : String) (file : Option String) (environment : List (String × String)) :
    Except SettingsError Settings :=
  match (file.map Toml.read?).getD (some []) with
  | none => .error .unreadable
  | some fields =>
    let layers := [(initial dataDirectory).toLayer, fields, environmentLayer environment]
    match ofFields? (fieldsOf (some (layers.foldl addLayer (.table [])))) with
    | some s => .ok s
    | none => .error .invalid

end Settings

end WorkflowCatalog
