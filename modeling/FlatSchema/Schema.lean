import FlatSchema.Record

namespace FlatSchema

def columnNames (columns : List Column) : List String := columns.map Column.name

def physicalColumns (columns : List Column) : List PhysicalColumn :=
  columns.filterMap Column.physical?

def nonPhysicalColumns (columns : List Column) : List NonPhysicalColumn :=
  columns.filterMap Column.nonPhysical?

def physicalNames (columns : List Column) : List String :=
  (physicalColumns columns).map PhysicalColumn.name

/-- The parts of a schema before they are checked against each other. -/
structure SchemaDraft where
  columns : List Column
  watermark : Option Watermark
  primaryKey : List String
deriving DecidableEq

/-- A part that is declared of a schema. -/
inductive Declaration where
  | column (column : Column)
  | physical (name : String) (dataType : TypeDescriptor)
  | computed (name : String) (dataType : TypeDescriptor) (expression : String)
  | metadata (name : String) (dataType : TypeDescriptor) (isVirtual : Bool)
  | metadataWithAlias (name : String) (dataType : TypeDescriptor) (key : String) (isVirtual : Bool)
  | watermark (watermark : Watermark)
  | primaryKey (names : List String)
deriving DecidableEq

/-- The column that is declared, if one is. -/
def Declaration.column? : Declaration → Option Column
  | column c => some c
  | physical name dataType => some (.physical ⟨name, dataType⟩)
  | computed name dataType expression =>
    some (.nonPhysical (.computed ⟨name, dataType, expression⟩))
  | metadata name dataType isVirtual => some (.nonPhysical (.plain name dataType isVirtual))
  | metadataWithAlias name dataType key isVirtual =>
    some (.nonPhysical (.withAlias name dataType key isVirtual))
  | watermark _ => none
  | primaryKey _ => none

/-- Columns with distinct names, a primary key of physical columns and a watermark on one of the
columns. -/
structure TableSchema where
  columns : List Column
  watermark : Option Watermark
  primaryKey : List String
  nodup_names : (columnNames columns).Nodup
  primaryKey_physical : ∀ key ∈ primaryKey, key ∈ physicalNames columns
  rowtime_known : ∀ w ∈ watermark, w.rowtime ∈ columnNames columns
deriving DecidableEq

/-- The first name that has come earlier in the list or is among those already seen. -/
def firstRepeat (seen : List String) : List String → Option String
  | [] => none
  | name :: rest => if name ∈ seen then some name else firstRepeat (name :: seen) rest

theorem firstRepeat_eq_none {seen names : List String} (h : firstRepeat seen names = none) :
    names.Nodup ∧ ∀ name ∈ names, name ∉ seen := by
  induction names generalizing seen with
  | nil => simp
  | cons name rest ih =>
    simp only [firstRepeat] at h
    split at h
    · cases h
    · rename_i hn
      obtain ⟨hd, hs⟩ := ih h
      refine ⟨List.nodup_cons.mpr ⟨fun hm => hs name hm List.mem_cons_self, hd⟩, ?_⟩
      intro other ho
      rcases List.mem_cons.mp ho with rfl | ho
      · exact hn
      · exact fun hm => hs other ho (List.mem_cons_of_mem _ hm)

namespace SchemaDraft

/-- A column is added to those declared before. A watermark or a primary key takes the place of the
one declared before. -/
def declare (d : SchemaDraft) : Declaration → SchemaDraft
  | .watermark w => { d with watermark := some w }
  | .primaryKey names => { d with primaryKey := names }
  | declaration => { d with columns := d.columns ++ declaration.column?.toList }

def ofDeclarations (declarations : List Declaration) : SchemaDraft :=
  declarations.foldl declare ⟨[], none, []⟩

/-- The first primary key that is not the name of a physical column. -/
def strayKey (d : SchemaDraft) : Option String :=
  d.primaryKey.find? (fun key => !(physicalNames d.columns).contains key)

/-- The column that the watermark watches, if it is not there. -/
def strayRowtime (d : SchemaDraft) : Option String :=
  (d.watermark.map Watermark.rowtime).filter (fun name => !(columnNames d.columns).contains name)

/-- Checks the names of the columns, then the primary key, then the watermark. -/
def build (d : SchemaDraft) : Except SchemaError TableSchema :=
  match hn : firstRepeat [] (columnNames d.columns) with
  | some name => .error (.duplicateColumn name)
  | none =>
    match hk : d.strayKey with
    | some name => .error (.unknownColumn .primaryKey name)
    | none =>
      match hw : d.strayRowtime with
      | some name => .error (.unknownColumn .watermark name)
      | none => .ok {
          columns := d.columns
          watermark := d.watermark
          primaryKey := d.primaryKey
          nodup_names := (firstRepeat_eq_none hn).1
          primaryKey_physical := fun key hm => by
            simpa using List.find?_eq_none.mp hk key hm
          rowtime_known := fun w hm => by
            simpa [Option.mem_def.mp hm] using Option.filter_eq_none_iff.mp hw w.rowtime }

end SchemaDraft

namespace TableSchema

def draft (s : TableSchema) : SchemaDraft := ⟨s.columns, s.watermark, s.primaryKey⟩

def column? (s : TableSchema) (name : String) : Option Column :=
  s.columns.find? (fun c => c.name == name)

/-- Where the column with a name stands among all columns. -/
def indexOf? (s : TableSchema) (name : String) : Option Nat :=
  s.columns.findIdx? (fun c => c.name == name)

/-- The records of the non-physical columns, each at the place of its column among all columns,
and of the watermark. -/
def options (s : TableSchema) : Except SchemaError Options := do
  let records ← encodeColumns s.indexOf? (nonPhysicalColumns s.columns)
  match s.watermark with
  | some w => .ok (records.union (encodeWatermark w))
  | none => .ok records

end TableSchema

end FlatSchema
