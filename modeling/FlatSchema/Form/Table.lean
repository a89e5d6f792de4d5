import FlatSchema.ChangeRecord
import FlatSchema.Form.Column

namespace FlatSchema

open Json

def Options.toJson (options : Options) : Json :=
  .object (options.entries.map (fun e => (e.1, .text e.2)))

/-- A member for a value that may be missing. -/
def optionalMember {α : Type} (name : String) (toJson : α → Json) (value : Option α) :
    List (String × Json) :=
  value.toList.map (fun v => (name, toJson v))

namespace TableSchema

def toJson (s : TableSchema) : Json :=
  .object ([("columns", .array (s.columns.map Column.toJson))] ++
    optionalMember "watermark" Watermark.toJson s.watermark ++
    if s.primaryKey.isEmpty then [] else [("primary_key", .texts s.primaryKey)])

/-- What has been read of a schema. -/
structure Draft where
  columns : Option (List Column) := none
  watermark : Option Watermark := none
  primaryKey : List String := []

/-- A schema that lies within containers of a depth. -/
def shape (depth : Nat) : Shape Draft SchemaDraft where
  fields := [
    field "columns" (readList (Column.read (depth + 2))) (fun v d => { d with columns := some v }),
    field "watermark" (readOptional Watermark.read) (fun v d => { d with watermark := v }),
    field "primary_key" (readList readText) (fun v d => { d with primaryKey := v })]
  unknown := .ignore
  start := {}
  finish d := do
    let columns ← d.columns
    some ⟨columns, d.watermark, d.primaryKey⟩

/-- A schema is checked as soon as its parts have been read. -/
def read (depth : Nat) : Reader TableSchema := fun t => do
  let draft ← (shape depth).read t
  draft.build.mapError ReadError.rejected

end TableSchema

namespace StoredTable

def toJson (s : StoredTable) : Json :=
  .object ([("fields", .array (s.fields.map PhysicalColumn.toJson)),
    ("primary_keys", .texts s.primaryKeys), ("options", s.options.toJson)] ++
    optionalMember "comment" .text s.comment)

structure Draft where
  fields : Option (List PhysicalColumn) := none
  primaryKeys : List String := []
  options : Options := .empty
  comment : Option String := none

def shape : Shape Draft StoredTable where
  fields := [
    field "fields" (readList PhysicalColumn.read) (fun v d => { d with fields := some v }),
    field "primary_keys" (readList readText) (fun v d => { d with primaryKeys := v }),
    field "options" (readMap readText) (fun v d => { d with options := v }),
    field "comment" (readOptional readText) (fun v d => { d with comment := v })]
  unknown := .ignore
  start := {}
  finish d := do
    let fields ← d.fields
    some ⟨fields, d.primaryKeys, d.options, d.comment⟩

def read : Reader StoredTable := shape.read

end StoredTable

namespace CatalogTable

def toJson (t : CatalogTable) : Json :=
  .object ([("schema", t.schema.toJson), ("options", t.options.toJson)] ++
    optionalMember "comment" .text t.comment)

structure Draft where
  schema : Option TableSchema := none
  options : Options := .empty
  comment : Option String := none

def shape : Shape Draft CatalogTable where
  fields := [
    field "schema" (TableSchema.read 1) (fun v d => { d with schema := some v }),
    field "options" (readMap readText) (fun v d => { d with options := v }),
    field "comment" (readOptional readText) (fun v d => { d with comment := v })]
  unknown := .ignore
  start := {}
  finish d := do
    let schema ← d.schema
    some ⟨schema, d.options, d.comment⟩

def read : Reader CatalogTable := shape.read

end CatalogTable

namespace ChangeRecord

def toJson (r : ChangeRecord) : Json :=
  .object [("field_types", .array (r.fieldTypes.map PhysicalColumn.toJson)),
    ("primary_keys", .texts r.primaryKeys)]

structure Draft where
  fieldTypes : Option (List PhysicalColumn) := none
  primaryKeys : List String := []

def shape : Shape Draft ChangeRecord where
  fields := [
    field "field_types" (readList PhysicalColumn.read)
      (fun v d => { d with fieldTypes := some v }),
    field "primary_keys" (readList readText) (fun v d => { d with primaryKeys := v })]
  unknown := .ignore
  start := {}
  finish d := do
    let fieldTypes ← d.fieldTypes
    some ⟨fieldTypes, d.primaryKeys⟩

def read : Reader ChangeRecord := shape.read

end ChangeRecord

end FlatSchema
