import FlatSchema.Json.Printer
import FlatSchema.Json.Reader
import FlatSchema.Record

namespace FlatSchema

open Json

namespace TypeDescriptor

def toJson (t : TypeDescriptor) : Json := .text t.text

/-- A descriptor in any of its spellings. -/
def read : Reader TypeDescriptor := fun t => do
  let text ← readText t
  (ofText text).mapError ReadError.rejected

end TypeDescriptor

namespace PhysicalColumn

def toJson (c : PhysicalColumn) : Json :=
  .object [("name", .text c.name), ("data_type", c.dataType.toJson)]

/-- What has been read of a physical column. -/
structure Draft where
  name : Option String := none
  dataType : Option TypeDescriptor := none

def shape : Shape Draft PhysicalColumn where
  fields := [
    field "name" readText (fun v d => { d with name := some v }),
    field "data_type" TypeDescriptor.read (fun v d => { d with dataType := some v })]
  unknown := .refuse
  start := {}
  finish d := do
    let name ← d.name
    let dataType ← d.dataType
    some ⟨name, dataType⟩

def read : Reader PhysicalColumn := shape.read

end PhysicalColumn

namespace ComputedColumn

def members (c : ComputedColumn) : List (String × Json) :=
  [("name", .text c.name), ("data_type", c.dataType.toJson), ("expression", .text c.expression)]

def toJson (c : ComputedColumn) : Json := .object c.members

structure Draft where
  name : Option String := none
  dataType : Option TypeDescriptor := none
  expression : Option String := none

def shape : Shape Draft ComputedColumn where
  fields := [
    field "name" readText (fun v d => { d with name := some v }),
    field "data_type" TypeDescriptor.read (fun v d => { d with dataType := some v }),
    field "expression" readText (fun v d => { d with expression := some v })]
  unknown := .ignore
  start := {}
  finish d := do
    let name ← d.name
    let dataType ← d.dataType
    let expression ← d.expression
    some ⟨name, dataType, expression⟩

def read : Reader ComputedColumn := shape.read

end ComputedColumn

namespace MetadataColumn

def members (c : MetadataColumn) : List (String × Json) :=
  [("name", .text c.name), ("data_type", c.dataType.toJson)] ++
    c.explicitAlias.toList.map (fun key => ("metadata_key", .text key)) ++
    [("is_virtual", .bool c.isVirtual)]

def toJson (c : MetadataColumn) : Json := .object c.members

structure Draft where
  name : Option String := none
  dataType : Option TypeDescriptor := none
  key : Option String := none
  isVirtual : Bool := false

def shape : Shape Draft MetadataColumn where
  fields := [
    field "name" readText (fun v d => { d with name := some v }),
    field "data_type" TypeDescriptor.read (fun v d => { d with dataType := some v }),
    field "metadata_key" (readOptional readText) (fun v d => { d with key := v }),
    field "is_virtual" readBool (fun v d => { d with isVirtual := v })]
  unknown := .ignore
  start := {}
  finish d := do
    let name ← d.name
    let dataType ← d.dataType
    match d.key with
    | some key => some (withAlias name dataType key d.isVirtual)
    | none => some (plain name dataType d.isVirtual)

def read : Reader MetadataColumn := shape.read

end MetadataColumn

namespace NonPhysicalColumn

inductive Kind where
  | computed
  | metadata
deriving DecidableEq

def Kind.word : Kind → String
  | computed => "computed"
  | metadata => "metadata"

def toJson : NonPhysicalColumn → Json
  | computed c => .object (("kind", .text Kind.computed.word) :: c.members)
  | metadata c => .object (("kind", .text Kind.metadata.word) :: c.members)

/-- A kind by its word or, where kinds are also numbered, by its number. -/
def kind? (numbered : Bool) : Tree → Option Kind
  | .text (some "computed") => some .computed
  | .text (some "metadata") => some .metadata
  | .number n =>
    if numbered then
      match n.toNat? with
      | some 0 => some .computed
      | some 1 => some .metadata
      | _ => none
    else none
  | _ => none

/-- Takes the kind out of a column: out of the member `kind` or, in an array, the first item. -/
def split? (numbered : Bool) : Tree → Option (Kind × Tree)
  | .object members closed =>
    match members.filter (fun m => m.1 == some "kind") with
    | [(_, t)] => do
      let kind ← kind? numbered t
      some (kind, .object (members.filter (fun m => m.1 != some "kind")) closed)
    | _ => none
  | .array (t :: items) closed => do
    let kind ← kind? numbered t
    some (kind, .array items closed)
  | _ => none

/-- A non-physical column that lies within containers of a depth. -/
def read (numbered : Bool) (depth : Nat) : Reader NonPhysicalColumn := fun t =>
  if t.isWhole depth then
    match split? numbered t with
    | some (.computed, rest) => (ComputedColumn.read rest).map computed
    | some (.metadata, rest) => (MetadataColumn.read rest).map metadata
    | none => .error .malformed
  else .error .malformed

end NonPhysicalColumn

namespace Column

def toJson : Column → Json
  | nonPhysical c => c.toJson
  | physical c => c.toJson

/-- A column that lies within containers of a depth. Why it does not read as either kind of column
is not told. -/
def read (depth : Nat) : Reader Column := fun t =>
  if t.isWhole depth then
    match NonPhysicalColumn.read true depth t, PhysicalColumn.read t with
    | .ok c, _ => .ok (nonPhysical c)
    | _, .ok c => .ok (physical c)
    | _, _ => .error .malformed
  else .error .malformed

end Column

namespace Watermark

def toJson (w : Watermark) : Json :=
  .object [("rowtime_attribute", .text w.rowtime), ("watermark_expr", .text w.expression),
    ("watermark_expr_output_type", w.dataType.toJson)]

structure Draft where
  rowtime : Option String := none
  expression : Option String := none
  dataType : Option TypeDescriptor := none

def shape : Shape Draft Watermark where
  fields := [
    field "rowtime_attribute" readText (fun v d => { d with rowtime := some v }),
    field "watermark_expr" readText (fun v d => { d with expression := some v }),
    field "watermark_expr_output_type" TypeDescriptor.read
      (fun v d => { d with dataType := some v })]
  unknown := .ignore
  start := {}
  finish d := do
    let rowtime ← d.rowtime
    let expression ← d.expression
    let dataType ← d.dataType
    some ⟨rowtime, expression, dataType⟩

def read : Reader Watermark := shape.read

end Watermark

end FlatSchema
