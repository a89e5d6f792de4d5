import FlatSchema.DataType

namespace FlatSchema

/-- A column with event times and the expression of its watermark. -/
structure Watermark where
  rowtime : String
  expression : String
  dataType : TypeDescriptor
deriving DecidableEq

end FlatSchema
