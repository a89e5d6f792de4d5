import FlatSchema.Column
import FlatSchema.DataType.Parser
import FlatSchema.Error
import FlatSchema.Options
import FlatSchema.Watermark

namespace FlatSchema

/-- The value of a key that must be there. -/
def Options.require (options : Options) (key : String) : Except SchemaError String :=
  match options.get? key with
  | some value => .ok value
  | none => .error (.missingKey key)

/-- The type descriptor that a text spells. -/
def TypeDescriptor.ofText (text : String) : Except SchemaError TypeDescriptor :=
  match ofText? text with
  | some t => .ok t
  | none => .error (.invalidType text)

def flagText (flag : Bool) : String := if flag then "true" else "false"

/-- Only `true`, in any case, sets a flag. -/
def readFlag (text : String) : Bool := text.toList.map Char.toLower == "true".toList

namespace NonPhysicalColumn

/-- The entries of a column at its index in the whole table. Beside the name and the type there is
an expression, which makes the column computed, or a metadata key with a flag. -/
def record (index : Nat) (c : NonPhysicalColumn) : List (String × String) :=
  [(columnKey index .name, c.name), (columnKey index .dataType, c.dataType.text)] ++
    match c with
    | computed column => [(columnKey index .expression, column.expression)]
    | metadata column =>
      [(columnKey index .metadata, column.metadataKey),
        (columnKey index .isVirtual, flagText column.isVirtual)]

end NonPhysicalColumn

/-- Writes the record of each column at the index of its name. -/
def encodeColumns (indexOf : String → Option Nat) (columns : List NonPhysicalColumn) :
    Except SchemaError Options :=
  columns.foldlM
    (fun options column =>
      match indexOf column.name with
      | some index => .ok (options.insertMany (column.record index))
      | none => .error (.missingIndex column.name))
    .empty

/-- Reads the record at an index. An expression makes the column computed even if there is a
metadata key beside it. -/
def decodeColumn (options : Options) (index : Nat) : Except SchemaError NonPhysicalColumn := do
  let name ← options.require (columnKey index .name)
  let dataType ← TypeDescriptor.ofText (← options.require (columnKey index .dataType))
  match options.get? (columnKey index .expression), options.get? (columnKey index .metadata) with
  | some expression, _ => .ok (.computed ⟨name, dataType, expression⟩)
  | none, some key =>
    let isVirtual := (options.get? (columnKey index .isVirtual)).any readFlag
    .ok (.metadata (.withAlias name dataType key isVirtual))
  | none, none => .error (.malformedColumn index options)

/-- Whether an entry stands for a record, given the names of the physical columns. Older writers
left such entries for these columns too. -/
def isRecordName (physical : List String) (key name : String) : Bool :=
  isColumnNameKey key && !physical.contains name

/-- How many records there are, given the names of the physical columns. No entry tells it. -/
def countNonPhysical (options : Options) (physical : List String) : Nat :=
  options.entries.countP (fun e => isRecordName physical e.1 e.2)

namespace Watermark

def record (w : Watermark) : List (String × String) :=
  [(watermarkKey .rowtime, w.rowtime), (watermarkKey .expression, w.expression),
    (watermarkKey .dataType, w.dataType.text)]

end Watermark

def encodeWatermark (w : Watermark) : Options := .ofList w.record

/-- Reads the watermark, of which every entry must be there. -/
def decodeWatermark (options : Options) : Except SchemaError Watermark := do
  let rowtime ← options.require (watermarkKey .rowtime)
  let expression ← options.require (watermarkKey .expression)
  let dataType ← TypeDescriptor.ofText (← options.require (watermarkKey .dataType))
  .ok ⟨rowtime, expression, dataType⟩

end FlatSchema
