namespace FlatSchema

inductive DataType where
  | boolean
  | tinyInt
  | smallInt
  | int
  | bigInt
  | float
  | double
  | string
  | varchar (length : UInt32)
  | char (length : UInt32)
  | bytes
  | decimal (precision scale : UInt8)
  | date
  /-- A local date and time, with the digits of its fraction of a second. -/
  | timestamp (precision : UInt8)
  /-- A moment, with the digits of its fraction of a second. -/
  | timestampLtz (precision : UInt8)
deriving DecidableEq

/-- The length by which some writers spell a text or bytes of any length. -/
def unboundedLength : UInt32 := 2147483647

namespace DataType

/-- The one form of the types that are written alike. -/
def canonical : DataType → DataType
  | varchar length => if length = unboundedLength then string else varchar length
  | other => other

/-- A name with arguments in parentheses. -/
def call (name : String) (arguments : List Nat) : String :=
  name ++ "(" ++ ", ".intercalate (arguments.map toString) ++ ")"

def text : DataType → String
  | boolean => "BOOLEAN"
  | tinyInt => "TINYINT"
  | smallInt => "SMALLINT"
  | int => "INT"
  | bigInt => "BIGINT"
  | float => "FLOAT"
  | double => "DOUBLE"
  | string => "STRING"
  | varchar length =>
    if length = unboundedLength then "STRING" else call "VARCHAR" [length.toNat]
  | char length => call "CHAR" [length.toNat]
  | bytes => "BYTES"
  | decimal precision scale => call "DECIMAL" [precision.toNat, scale.toNat]
  | date => "DATE"
  | timestamp precision => call "TIMESTAMP" [precision.toNat]
  | timestampLtz precision => call "TIMESTAMP_LTZ" [precision.toNat]

end DataType

/-- A data type and whether a column of it may hold nulls. -/
structure TypeDescriptor where
  dataType : DataType
  nullable : Bool
deriving DecidableEq

namespace TypeDescriptor

/-- The descriptor of the canonical form of a data type. -/
def make (dataType : DataType) (nullable : Bool) : TypeDescriptor :=
  ⟨dataType.canonical, nullable⟩

/-- Descriptors that no other descriptor is written like. -/
def Canonical (t : TypeDescriptor) : Prop := t.dataType.canonical = t.dataType

instance (t : TypeDescriptor) : Decidable t.Canonical := inferInstanceAs (Decidable (_ = _))

def text (t : TypeDescriptor) : String :=
  if t.nullable then t.dataType.text else t.dataType.text ++ " NOT NULL"

end TypeDescriptor

end FlatSchema
