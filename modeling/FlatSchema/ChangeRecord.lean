import FlatSchema.Table

namespace FlatSchema

/-- What a change record tells about its table. -/
structure ChangeRecord where
  /-- The fields in the order of the source. -/
  fieldTypes : List PhysicalColumn
  primaryKeys : List String
deriving DecidableEq

/-- The flat form of a new table for a record, with the options of every new table. -/
def ChangeRecord.newTable (r : ChangeRecord) (config : Options) : StoredTable where
  fields := r.fieldTypes
  primaryKeys := r.primaryKeys
  options := config
  comment := none

end FlatSchema
