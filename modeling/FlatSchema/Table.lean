import FlatSchema.Schema

namespace FlatSchema

/-- A table as the storage layer keeps it. Only the physical columns are fields, and the rest of the
schema lies in the options. -/
structure StoredTable where
  fields : List PhysicalColumn
  primaryKeys : List String
  options : Options
  comment : Option String
deriving DecidableEq

/-- A table with its whole schema and the options of its user. -/
structure CatalogTable where
  schema : TableSchema
  options : Options
  comment : Option String
deriving DecidableEq

/-- The flat form of a table. The user's options give way to the schema's. -/
def CatalogTable.toStored (t : CatalogTable) : Except SchemaError StoredTable := do
  let schemaOptions ← t.schema.options
  .ok {
    fields := physicalColumns t.schema.columns
    primaryKeys := t.schema.primaryKey
    options := t.options.user.union schemaOptions
    comment := t.comment }

namespace StoredTable

def fieldNames (s : StoredTable) : List String := s.fields.map PhysicalColumn.name

/-- Whether an index holds a record, rather than an entry that repeats a field's name. -/
def hasRecord (s : StoredTable) (index : Nat) : Bool :=
  (s.options.get? (columnKey index .name)).any (fun name => !s.fieldNames.contains name)

/-- The columns from an index on, given how many there are and which fields are left. An index with
a record takes its column, every other index the next field. -/
def columnsFrom (s : StoredTable) :
    Nat → Nat → List PhysicalColumn → Except SchemaError (List Column)
  | 0, _, _ => .ok []
  | count + 1, index, fields =>
    if s.hasRecord index then do
      let column ← decodeColumn s.options index
      let rest ← columnsFrom s count (index + 1) fields
      .ok (.nonPhysical column :: rest)
    else
      match fields with
      | [] => .error (.columnLayout index)
      | field :: fields => do
        let rest ← columnsFrom s count (index + 1) fields
        .ok (.physical field :: rest)

def columns (s : StoredTable) : Except SchemaError (List Column) :=
  s.columnsFrom (s.fields.length + countNonPhysical s.options s.fieldNames) 0 s.fields

/-- The watermark, which must be whole if any of its keys is there. -/
def watermark (s : StoredTable) : Except SchemaError (Option Watermark) :=
  if s.options.hasWatermark then (decodeWatermark s.options).map some else .ok none

/-- The table that a flat form stands for. -/
def restore (s : StoredTable) : Except SchemaError CatalogTable := do
  let columns ← s.columns
  let watermark ← s.watermark
  let schema ← SchemaDraft.build ⟨columns, watermark, s.primaryKeys⟩
  .ok ⟨schema, s.options.user, s.comment⟩

end StoredTable

end FlatSchema
