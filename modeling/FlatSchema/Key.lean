namespace FlatSchema

inductive Component where
  | word (text : String)
  | number (value : Int)
deriving DecidableEq

namespace Component

def text : Component → String
  | word text => text
  | number value => toString value

end Component

/-- Components joined by dots. One that holds a dot reads back as several. -/
def compoundKey (components : List Component) : String :=
  ".".intercalate (components.map Component.text)

/-- What the schema keeps about a column that the storage layer does not know. -/
inductive ColumnField where
  | name
  | dataType
  | expression
  | metadata
  | isVirtual
deriving DecidableEq

def ColumnField.word : ColumnField → String
  | name => "name"
  | dataType => "data-type"
  | expression => "expr"
  | metadata => "metadata"
  | isVirtual => "virtual"

/-- The key of a field of the column at an index. -/
def columnKey (index : Nat) (field : ColumnField) : String :=
  compoundKey [.word "schema", .number index, .word field.word]

/-- What the schema keeps about its watermark. -/
inductive WatermarkField where
  | rowtime
  | expression
  | dataType
deriving DecidableEq

def WatermarkField.words : WatermarkField → List Component
  | rowtime => [.word "rowtime"]
  | expression => [.word "strategy", .word "expr"]
  | dataType => [.word "strategy", .word "data-type"]

/-- The key of a field of the watermark. A schema has one watermark, at index 0. -/
def watermarkKey (field : WatermarkField) : String :=
  compoundKey ([.word "schema", .word "watermark", .number 0] ++ field.words)

/-- What every key of a watermark starts with. -/
def watermarkStart : String := compoundKey [.word "schema", .word "watermark"]

/-- What every key of a schema starts with. -/
def reservedStart : String := "schema."

def startsWith (start text : String) : Bool := start.toList.isPrefixOf text.toList

/-- Whether a key belongs to the schema and is closed to user options. -/
def isReserved (key : String) : Bool := startsWith reservedStart key

/-- Whether a key announces a watermark. -/
def isWatermarkKey (key : String) : Bool := startsWith watermarkStart key

/-- The text between the first and the last component of a key that could name a column. -/
def columnNameIndex? (key : String) : Option (List Char) :=
  (reservedStart.toList.isPrefixOf? key.toList).bind (".name".toList.isSuffixOf? ·)

/-- Whether a key has the shape `schema.<digits>.name`. The digits may be more than the index of
any column needs, or begin with zeros. -/
def isColumnNameKey (key : String) : Bool :=
  match columnNameIndex? key with
  | some digits => !digits.isEmpty && digits.all Char.isDigit
  | none => false

end FlatSchema
