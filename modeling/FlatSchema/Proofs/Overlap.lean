import FlatSchema.Proofs.Encoding

namespace FlatSchema

namespace NonPhysicalColumn

def computed? : NonPhysicalColumn → Option ComputedColumn
  | computed column => some column
  | metadata _ => none

def metadata? : NonPhysicalColumn → Option MetadataColumn
  | computed _ => none
  | metadata column => some column

/-- Columns of which the records have entries for the same fields. -/
def SameKind (c d : NonPhysicalColumn) : Prop := c.computed?.isSome = d.computed?.isSome

instance (c d : NonPhysicalColumn) : Decidable (c.SameKind d) :=
  inferInstanceAs (Decidable (_ = _))

theorem value?_expression (c : NonPhysicalColumn) :
    c.value? .expression = c.computed?.map ComputedColumn.expression := by
  cases c <;> rfl

theorem value?_metadata (c : NonPhysicalColumn) :
    c.value? .metadata = c.metadata?.map MetadataColumn.metadataKey := by
  cases c <;> rfl

theorem value?_isVirtual (c : NonPhysicalColumn) :
    c.value? .isVirtual = c.metadata?.map (fun column => flagText column.isVirtual) := by
  cases c <;> rfl

theorem SameKind.value?_eq_none {c d : NonPhysicalColumn} (h : d.SameKind c) {f : ColumnField}
    (hf : c.value? f = none) : d.value? f = none := by
  cases c <;> cases d <;> cases f <;> simp_all [SameKind, computed?, value?]

end NonPhysicalColumn

open Indexed NonPhysicalColumn

variable {indexOf : String → Option Nat} {columns : List NonPhysicalColumn} {options : Options}

/-- Where encoding succeeds, every column has an index. -/
theorem indexOf_eq_of_encodeColumns (h : encodeColumns indexOf columns = .ok options) :
    ∀ c ∈ columns, indexOf c.name = some (place indexOf c) := by
  refine forall_of_except_foldlM ?_ h
  intro before c after hstep
  cases hindex : indexOf c.name with
  | none =>
    rw [hindex] at hstep
    cases hstep
  | some j =>
    rw [place, hindex]
    rfl

/-- The columns that are encoded at an index, in their order. -/
def columnsAt (indexOf : String → Option Nat) (columns : List NonPhysicalColumn) (i : Nat) :
    List NonPhysicalColumn :=
  columns.filter (fun c => indexOf c.name = some i)

/-- An entry of an index is that of the last column there that has one for the field. Encoding does
not ask whether an index is taken, and it clears nothing. -/
theorem get?_encodeColumns (h : encodeColumns indexOf columns = .ok options) (i : Nat)
    (f : ColumnField) : options.get? (columnKey i f) =
      ((columnsAt indexOf columns i).filterMap (·.value? f)).getLast? := by
  have hassigned := indexOf_eq_of_encodeColumns h
  rw [encodeColumns_eq_ok hassigned, Except.ok.injEq] at h
  have hplaced : columns.filter (place indexOf · = i) = columnsAt indexOf columns i := by
    apply List.filter_congr
    intro c hc
    rw [hassigned c hc]
    simp
  rw [← h, ← hplaced]
  exact (get?_insertMany_placed (place indexOf) columns .empty i f).trans (Option.or_none)

def computedAt (indexOf : String → Option Nat) (columns : List NonPhysicalColumn) (i : Nat) :
    List ComputedColumn :=
  (columnsAt indexOf columns i).filterMap computed?

def metadataAt (indexOf : String → Option Nat) (columns : List NonPhysicalColumn) (i : Nat) :
    List MetadataColumn :=
  (columnsAt indexOf columns i).filterMap metadata?

variable {i : Nat} {c : NonPhysicalColumn}

/-- An entry that the last column at an index has is its own. -/
theorem get?_of_last (h : encodeColumns indexOf columns = .ok options)
    (hlast : (columnsAt indexOf columns i).getLast? = some c) {f : ColumnField} {value : String}
    (hvalue : c.value? f = some value) : options.get? (columnKey i f) = some value := by
  obtain ⟨before, hbefore⟩ := List.getLast?_eq_some_iff.mp hlast
  rw [get?_encodeColumns h, hbefore, List.filterMap_append, List.getLast?_append,
    List.filterMap_cons_some (f := (value? · f)) hvalue]
  rfl

/-- Where columns of one kind meet, the last of them has its record to itself. -/
theorem get?_of_sameKind (h : encodeColumns indexOf columns = .ok options)
    (hlast : (columnsAt indexOf columns i).getLast? = some c)
    (hkind : ∀ d ∈ columnsAt indexOf columns i, d.SameKind c) (f : ColumnField) :
    options.get? (columnKey i f) = c.value? f := by
  cases hvalue : c.value? f with
  | some value => exact get?_of_last h hlast hvalue
  | none =>
    have hnone : (columnsAt indexOf columns i).filterMap (·.value? f) = [] :=
      List.filterMap_eq_nil_iff.mpr (fun d hd => (hkind d hd).value?_eq_none hvalue)
    rw [get?_encodeColumns h, hnone]
    rfl

/-- What only columns of one kind have is left by the last column of that kind. -/
theorem get?_of_kind {α : Type} {kind? : NonPhysicalColumn → Option α} {part : α → String}
    {f : ColumnField} (hpart : ∀ c, c.value? f = (kind? c).map part)
    (h : encodeColumns indexOf columns = .ok options) : options.get? (columnKey i f) =
      ((columnsAt indexOf columns i).filterMap kind?).getLast?.map part := by
  rw [get?_encodeColumns h, ← List.getLast?_map, List.map_filterMap]
  simp only [hpart]

/-- An expression makes a record that of a computed column, even if a metadata column came last. -/
theorem decodeColumn_of_expression (h : encodeColumns indexOf columns = .ok options)
    (hlast : (columnsAt indexOf columns i).getLast? = some c) {column : ComputedColumn}
    (hcolumn : (computedAt indexOf columns i).getLast? = some column) (hc : c.Canonical) :
    decodeColumn options i = .ok (.computed ⟨c.name, c.dataType, column.expression⟩) := by
  have hexpression : options.get? (columnKey i .expression) = some column.expression :=
    (get?_of_kind value?_expression h).trans (congrArg (Option.map _) hcolumn)
  exact decodeColumn_eq_ok_iff.mpr ⟨get?_of_last h hlast rfl, ⟨_, get?_of_last h hlast rfl,
    TypeDescriptor.ofText?_text_of_canonical hc⟩, hexpression⟩

/-- An index without a column holds nothing. One at which columns of one kind meet holds the
record of the last of them, and this column is decoded. One at which columns of both kinds meet
has the name and the type of the last, and beside them what tells a computed column from the
last computed one and what tells a metadata column from the last metadata one. -/
theorem record_of_encodeColumns (h : encodeColumns indexOf columns = .ok options) (i : Nat) :
    (columnsAt indexOf columns i = [] → ∀ f, options.get? (columnKey i f) = none) ∧
    ∀ c, (columnsAt indexOf columns i).getLast? = some c →
      ((∀ d ∈ columnsAt indexOf columns i, d.SameKind c) →
        (∀ f, options.get? (columnKey i f) = c.value? f) ∧
        (c.Canonical → decodeColumn options i = .ok c)) ∧
      ∀ computed metadata, (computedAt indexOf columns i).getLast? = some computed →
        (metadataAt indexOf columns i).getLast? = some metadata →
        options.get? (columnKey i .name) = some c.name ∧
        options.get? (columnKey i .dataType) = some c.dataType.text ∧
        options.get? (columnKey i .expression) = some computed.expression ∧
        options.get? (columnKey i .metadata) = some metadata.metadataKey ∧
        options.get? (columnKey i .isVirtual) = some (flagText metadata.isVirtual) ∧
        (c.Canonical → decodeColumn options i =
          .ok (.computed ⟨c.name, c.dataType, computed.expression⟩)) := by
  constructor
  · intro hnone f
    rw [get?_encodeColumns h, hnone]
    rfl
  · intro c hlast
    constructor
    · intro hkind
      have hrecord := get?_of_sameKind h hlast hkind
      exact ⟨hrecord, decodeColumn_of_entries hrecord⟩
    · intro computed metadata hcomputed hmetadata
      exact ⟨get?_of_last h hlast rfl, get?_of_last h hlast rfl,
        (get?_of_kind value?_expression h).trans (congrArg (Option.map _) hcomputed),
        (get?_of_kind value?_metadata h).trans (congrArg (Option.map _) hmetadata),
        (get?_of_kind value?_isVirtual h).trans (congrArg (Option.map _) hmetadata),
        decodeColumn_of_expression h hlast hcomputed⟩

/-- The offset of a sale, under the key by which the connector knows it. -/
def offset (key : String) : MetadataColumn := .withAlias "offset" ⟨.bigInt, false⟩ key true

/-- The offset is there twice. -/
def crowdedColumns : List NonPhysicalColumn :=
  [.computed total, .metadata topic, .metadata (offset "offset"), .metadata (offset "position")]

/-- A computed column and a metadata column have the same index. -/
def crowdedIndices (name : String) : Option Nat :=
  if name = "total" ∨ name = "topic" then some 0 else if name = "offset" then some 3 else none

theorem record_of_encodeColumns_crowded :
    ∃ options, encodeColumns crowdedIndices crowdedColumns = .ok options ∧
      (columnsAt crowdedIndices crowdedColumns 1 = [] ∧
        options.get? (columnKey 1 .name) = none) ∧
      ((∀ d ∈ columnsAt crowdedIndices crowdedColumns 3,
          d.SameKind (.metadata (offset "position"))) ∧
        decodeColumn options 3 = .ok (.metadata (offset "position"))) ∧
      decodeColumn options 0 =
        .ok (.computed ⟨"topic", ⟨.string, false⟩, "price * amount"⟩) := by
  obtain ⟨options, hencode⟩ : ∃ options,
      encodeColumns crowdedIndices crowdedColumns = .ok options :=
    ⟨_, @encodeColumns_eq_ok _ (place crowdedIndices) _ (by decide)⟩
  have hnone : columnsAt crowdedIndices crowdedColumns 1 = [] := by decide
  have hkind : ∀ d ∈ columnsAt crowdedIndices crowdedColumns 3,
      d.SameKind (.metadata (offset "position")) := by decide
  have hoffset := (record_of_encodeColumns hencode 3).2 (.metadata (offset "position"))
    (by decide)
  have htopic := (record_of_encodeColumns hencode 0).2 (.metadata topic) (by decide)
  exact ⟨options, hencode, ⟨hnone, (record_of_encodeColumns hencode 1).1 hnone .name⟩,
    ⟨hkind, (hoffset.1 hkind).2 (by decide)⟩,
    (htopic.2 total topic (by decide) (by decide)).2.2.2.2.2 (by decide)⟩

/-- A record can have both an expression and a metadata key, and then it is not decoded as any of
the columns that were encoded. -/
theorem encodeColumns_clash :
    ∃ options, encodeColumns crowdedIndices crowdedColumns = .ok options ∧
      (∀ c ∈ crowdedColumns, c.Canonical) ∧
      options.get? "schema.0.expr" = some "price * amount" ∧
      options.get? "schema.0.metadata" = some "topic" ∧
      options.get? "schema.0.virtual" = some "false" ∧
      ∀ c ∈ crowdedColumns, decodeColumn options 0 ≠ .ok c :=
  ⟨_, @encodeColumns_eq_ok _ (place crowdedIndices) _ (by decide), by decide,
    by decide +kernel, by decide +kernel, by decide +kernel, by decide +kernel⟩

end FlatSchema
