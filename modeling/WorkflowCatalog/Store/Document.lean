import WorkflowCatalog.Json.Printer
import WorkflowCatalog.Json.Reader
import WorkflowCatalog.Store

/-!
# The catalog as a document

What a store looks like as a JSON document, and how one is read back. Reading also takes records given
by position, and lets fields be missing that have a natural default.
-/
namespace WorkflowCatalog

def EntryPath.toJson (p : EntryPath) : Json :=
  .object [("source_control", .text p.host.name), ("organization", .text p.organization),
    ("repository", .text p.repository), ("name", Json.ofOption .text p.name)]

def EntryPath.ofJson? (j : Json) : Option EntryPath := do
  let r ← j.record? ["source_control", "organization", "repository", "name"]
  return {
    host := ← r.required "source_control" fun j => j.name?.bind Host.ofName?
    organization := ← r.required "organization" Json.text?
    repository := ← r.required "repository" Json.text?
    name := ← r.optional "name" Json.text? }

def Timestamp.toJson (t : Timestamp) : Json := .text t.text

def Timestamp.ofJson? (j : Json) : Option Timestamp := j.text?.bind Timestamp.ofText?

def Language.ofJson? (j : Json) : Option Language := j.name?.bind Language.ofName?

def Checksum.toJson (c : Checksum) : Json :=
  .object [("type", .text c.algorithm.name), ("checksum", .text c.digest)]

def Checksum.ofJson? (j : Json) : Option Checksum := do
  let r ← j.record? ["type", "checksum"]
  return {
    algorithm := ← r.required "type" fun j => j.name?.bind DigestAlgorithm.ofName?
    digest := ← r.required "checksum" Json.text? }

def SourceFile.toJson (f : SourceFile) : Json :=
  .object [("id", .text f.id), ("type", .text f.type.name), ("path", .text f.path),
    ("absolute_path", .text f.absolutePath), ("content", Json.ofOption .text f.content),
    ("checksums", Json.ofList Checksum.toJson f.checksums), ("created_at", f.createdAt.toJson)]

def SourceFile.ofJson? (j : Json) : Option SourceFile := do
  let r ← j.record? ["id", "type", "path", "absolute_path", "content", "checksums", "created_at"]
  return {
    id := ← r.required "id" Json.text?
    type := ← r.required "type" fun j => j.name?.bind FileType.ofName?
    path := ← r.required "path" Json.text?
    absolutePath := ← r.required "absolute_path" Json.text?
    content := ← r.optional "content" Json.text?
    checksums := ← r.defaulted "checksums" [] (Json.list? Checksum.ofJson?)
    createdAt := ← r.required "created_at" Timestamp.ofJson? }

/-- A category is a name, or an object that says which language the descriptor has. -/
def Category.toJson : Category → Json
  | .manifest => .text "manifest"
  | .descriptor l => .object [("descriptor", .text l.name)]
  | .testParameters => .text "test_parameter_file"
  | .imports => .text "imports"

def Category.ofJson? : Json → Option Category
  | .object [("descriptor", j)] => (Language.ofJson? j).map .descriptor
  | j => do
    match ← j.name? with
    | "manifest" => some .manifest
    | "test_parameter_file" => some .testParameters
    | "imports" => some .imports
    | _ => none

def Validation.toJson (v : Validation) : Json :=
  .object [("category", v.category.toJson), ("is_valid", .bool v.isValid), ("message", .text v.message)]

def Validation.ofJson? (j : Json) : Option Validation := do
  let r ← j.record? ["category", "is_valid", "message"]
  return {
    category := ← r.required "category" Category.ofJson?
    isValid := ← r.required "is_valid" Json.bool?
    message := ← r.required "message" Json.text? }

namespace Version

def toJson (v : Version) : Json :=
  .object [("name", .text v.name), ("reference_type", .text v.referenceType.name),
    ("commit_id", Json.ofOption .text v.commitId), ("frozen", .bool v.frozen), ("legacy", .bool v.legacy),
    ("language", .text v.language.name), ("descriptor_path", Json.ofOption .text v.descriptorPath),
    ("test_parameter_paths", Json.ofList .text v.testParameterPaths),
    ("source_files", Json.ofList SourceFile.toJson v.sourceFiles),
    ("validations", Json.ofList Validation.toJson v.validations),
    ("last_modified", Json.ofOption Timestamp.toJson v.lastModified)]

def ofJson? (j : Json) : Option Version := do
  let r ← j.record? ["name", "reference_type", "commit_id", "frozen", "legacy", "language", "descriptor_path",
    "test_parameter_paths", "source_files", "validations", "last_modified"]
  return {
    name := ← r.required "name" Json.text?
    referenceType := ← r.required "reference_type" fun j => j.name?.bind ReferenceType.ofName?
    commitId := ← r.optional "commit_id" Json.text?
    frozen := ← r.defaulted "frozen" false Json.bool?
    legacy := ← r.defaulted "legacy" false Json.bool?
    language := ← r.required "language" Language.ofJson?
    descriptorPath := ← r.defaulted "descriptor_path" none (Json.option? Json.text?)
    testParameterPaths := ← r.defaulted "test_parameter_paths" [] (Json.list? Json.text?)
    sourceFiles := ← r.defaulted "source_files" [] (Json.list? SourceFile.ofJson?)
    validations := ← r.defaulted "validations" [] (Json.list? Validation.ofJson?)
    lastModified := ← r.defaulted "last_modified" none (Json.option? Timestamp.ofJson?) }

end Version

namespace Entry

def toJson (e : Entry) : Json :=
  .object [("id", .text e.id), ("path", e.path.toJson), ("kind", .text e.kind.name),
    ("language", .text e.language.name), ("default_descriptor_path", .text e.defaultDescriptorPath),
    ("default_test_parameter_path", Json.ofOption .text e.defaultTestParameterPath),
    ("published", .bool e.published), ("authors", Json.ofList .text e.authors),
    ("versions", Json.ofList Version.toJson e.versions)]

def ofJson? (j : Json) : Option Entry := do
  let r ← j.record? ["id", "path", "kind", "language", "default_descriptor_path", "default_test_parameter_path",
    "published", "authors", "versions"]
  return {
    id := ← r.required "id" Json.text?
    path := ← r.required "path" EntryPath.ofJson?
    kind := ← r.required "kind" fun j => j.name?.bind EntryKind.ofName?
    language := ← r.required "language" Language.ofJson?
    defaultDescriptorPath := ← r.required "default_descriptor_path" Json.text?
    defaultTestParameterPath := ← r.defaulted "default_test_parameter_path" none (Json.option? Json.text?)
    published := ← r.defaulted "published" false Json.bool?
    authors := ← r.defaulted "authors" [] (Json.list? Json.text?)
    versions := ← r.defaulted "versions" [] (Json.list? Version.ofJson?) }

end Entry

def User.toJson (u : User) : Json := .object [("username", .text u.username), ("created_at", u.createdAt.toJson)]

def User.ofJson? (j : Json) : Option User := do
  let r ← j.record? ["username", "created_at"]
  return {
    username := ← r.required "username" Json.text?
    createdAt := ← r.required "created_at" Timestamp.ofJson? }

namespace Store

def toJson (s : Store) : Json :=
  .object [("entries", Json.ofList Entry.toJson s.entries), ("users", Json.ofList User.toJson s.users)]

def ofJson? (j : Json) : Option Store := do
  let r ← j.record? ["entries", "users"]
  return {
    entries := ← r.defaulted "entries" [] (Json.list? Entry.ofJson?)
    users := ← r.defaulted "users" [] (Json.list? User.ofJson?) }

/-- The text of the document. -/
def write (s : Store) : String := s.toJson.pretty

def read? (text : String) : Option Store := (Json.read? text).bind ofJson?

end Store

end WorkflowCatalog
