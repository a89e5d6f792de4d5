import FlatSchema.DataType

namespace FlatSchema

/-- A column that the storage layer keeps. -/
structure PhysicalColumn where
  name : String
  dataType : TypeDescriptor
deriving DecidableEq

/-- A column whose value an expression over other columns gives. -/
structure ComputedColumn where
  name : String
  dataType : TypeDescriptor
  expression : String
deriving DecidableEq

/-- A column that is read from the connector's metadata. An alias that equals the name is never
kept, so columns that read the same key under the same name are equal. -/
structure MetadataColumn where
  name : String
  dataType : TypeDescriptor
  explicitAlias : Option String
  isVirtual : Bool
  explicitAlias_ne_name : explicitAlias ≠ some name := by simp
deriving DecidableEq

namespace MetadataColumn

/-- A column that is read from the metadata key of its own name. -/
def plain (name : String) (dataType : TypeDescriptor) (isVirtual : Bool) : MetadataColumn where
  name := name
  dataType := dataType
  explicitAlias := none
  isVirtual := isVirtual

/-- A column that is read from a given metadata key. -/
def withAlias (name : String) (dataType : TypeDescriptor) (key : String) (isVirtual : Bool) :
    MetadataColumn :=
  if h : key = name then plain name dataType isVirtual
  else
    { name := name
      dataType := dataType
      explicitAlias := some key
      isVirtual := isVirtual
      explicitAlias_ne_name := by simpa using h }

def metadataKey (c : MetadataColumn) : String := c.explicitAlias.getD c.name

end MetadataColumn

/-- A column that the storage layer does not know. -/
inductive NonPhysicalColumn where
  | computed (column : ComputedColumn)
  | metadata (column : MetadataColumn)
deriving DecidableEq

namespace NonPhysicalColumn

def plain (name : String) (dataType : TypeDescriptor) (isVirtual : Bool) : NonPhysicalColumn :=
  metadata (.plain name dataType isVirtual)

def withAlias (name : String) (dataType : TypeDescriptor) (key : String) (isVirtual : Bool) :
    NonPhysicalColumn :=
  metadata (.withAlias name dataType key isVirtual)

def name : NonPhysicalColumn → String
  | computed column => column.name
  | metadata column => column.name

def dataType : NonPhysicalColumn → TypeDescriptor
  | computed column => column.dataType
  | metadata column => column.dataType

end NonPhysicalColumn

inductive Column where
  | nonPhysical (column : NonPhysicalColumn)
  | physical (column : PhysicalColumn)
deriving DecidableEq

namespace Column

def name : Column → String
  | nonPhysical column => column.name
  | physical column => column.name

def dataType : Column → TypeDescriptor
  | nonPhysical column => column.dataType
  | physical column => column.dataType

def physical? : Column → Option PhysicalColumn
  | nonPhysical _ => none
  | physical column => some column

def nonPhysical? : Column → Option NonPhysicalColumn
  | nonPhysical column => some column
  | physical _ => none

end Column

end FlatSchema
