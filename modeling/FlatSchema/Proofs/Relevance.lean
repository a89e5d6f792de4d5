import FlatSchema.Proofs.Restoration

namespace FlatSchema

/-- A cause without the options that it shows. -/
def SchemaError.withoutOptions : SchemaError → SchemaError
  | malformedColumn index _ => malformedColumn index .empty
  | other => other

/-- What a record holds beside its name. -/
def ColumnField.details : List ColumnField := [.dataType, .expression, .metadata, .isVirtual]

theorem ColumnField.eq_name_or_mem_details (f : ColumnField) : f = .name ∨ f ∈ details := by
  cases f <;> decide

/-- Decoding a record looks at its own keys only. -/
theorem decodeColumn_congr {options options' : Options} {i : Nat}
    (h : ∀ f, options.get? (columnKey i f) = options'.get? (columnKey i f)) :
    (decodeColumn options i).mapError SchemaError.withoutOptions =
      (decodeColumn options' i).mapError SchemaError.withoutOptions := by
  simp only [decodeColumn, Options.require, h, except_mapError_bind]
  congr 1
  funext name
  congr 1
  funext text
  congr 1
  funext dataType
  -- Only a record without a kind is refused with a view of all options.
  cases options'.get? (columnKey i .expression) with
  | some expression => rfl
  | none => cases options'.get? (columnKey i .metadata) <;> rfl

namespace StoredTable

/-- The entries that are counted as records. -/
def recordNames (s : StoredTable) : Options := s.options.filter (isRecordName s.fieldNames)

/-- The entries that announce a watermark or belong to it. -/
def watermarkEntries (s : StoredTable) : Options :=
  s.options.filter (fun key _ => isWatermarkKey key)

/-- Flat forms with the same fields and primary key whose options have the same names of records,
the same details of every record that has a place among the columns, and the same entries of a
watermark. -/
structure Agree (s₁ s₂ : StoredTable) : Prop where
  fields : s₁.fields = s₂.fields
  primaryKeys : s₁.primaryKeys = s₂.primaryKeys
  names : s₁.recordNames = s₂.recordNames
  details : ∀ i < s₁.fields.length + countNonPhysical s₁.options s₁.fieldNames,
    columnKey i .name ∈ s₁.recordNames.keys →
      ∀ f ∈ ColumnField.details,
        s₁.options.get? (columnKey i f) = s₂.options.get? (columnKey i f)
  watermark : s₁.watermarkEntries = s₂.watermarkEntries

/-- The schema of a flat form, or the cause for which it has none. -/
def schemaOutcome (s : StoredTable) : Except SchemaError TableSchema :=
  (s.restore.map CatalogTable.schema).mapError SchemaError.withoutOptions

theorem schemaOutcome_eq (s : StoredTable) : s.schemaOutcome =
    (s.columns.mapError SchemaError.withoutOptions >>= fun columns =>
      s.watermark.mapError SchemaError.withoutOptions >>= fun watermark =>
        (SchemaDraft.build ⟨columns, watermark, s.primaryKeys⟩).mapError
          SchemaError.withoutOptions) := by
  unfold schemaOutcome restore
  cases s.columns with
  | error e => rfl
  | ok columns =>
    cases s.watermark with
    | error e => rfl
    | ok watermark =>
      simp only [except_bind_ok, Except.mapError]
      cases SchemaDraft.build ⟨columns, watermark, s.primaryKeys⟩ <;> rfl

theorem countedKeys_eq (s : StoredTable) : s.countedKeys = s.recordNames.keys := rfl

theorem get?_recordNames {s : StoredTable} {i : Nat} (h : s.hasRecord i) :
    s.options.get? (columnKey i .name) = s.recordNames.get? (columnKey i .name) := by
  obtain ⟨name, hget, hkey, hname⟩ := mem_countedKeys.mp (hasRecord_iff.mp h)
  rw [recordNames, SortedMap.get?_filter, hget]
  simp [Option.filter, isRecordName, hkey, hname]

namespace Agree

variable {s₁ s₂ : StoredTable}

theorem countNonPhysical_eq (h : Agree s₁ s₂) :
    countNonPhysical s₁.options s₁.fieldNames = countNonPhysical s₂.options s₂.fieldNames := by
  rw [← length_countedKeys, ← length_countedKeys, countedKeys_eq, countedKeys_eq, h.names]

theorem hasRecord_eq (h : Agree s₁ s₂) (i : Nat) : s₁.hasRecord i = s₂.hasRecord i := by
  rw [Bool.eq_iff_iff, hasRecord_iff, hasRecord_iff, countedKeys_eq, countedKeys_eq, h.names]

theorem decodeColumn_eq (h : Agree s₁ s₂) {i : Nat}
    (hi : i < s₁.fields.length + countNonPhysical s₁.options s₁.fieldNames)
    (hrecord : s₁.hasRecord i) :
    (decodeColumn s₁.options i).mapError SchemaError.withoutOptions =
      (decodeColumn s₂.options i).mapError SchemaError.withoutOptions := by
  apply decodeColumn_congr
  intro f
  rcases f.eq_name_or_mem_details with rfl | hf
  · have hrecord' : s₂.hasRecord i := by rwa [← h.hasRecord_eq i]
    rw [get?_recordNames hrecord, get?_recordNames hrecord', h.names]
  · exact h.details i hi (hasRecord_iff.mp hrecord) f hf

/-- Both layouts make the same choice at each index, and have the same column there. The indices
stay below the number of columns, where the details of records are known to be the same. -/
theorem columnsFrom_eq (h : Agree s₁ s₂) {count i : Nat} {fields : List PhysicalColumn}
    (hend : i + count ≤ s₁.fields.length + countNonPhysical s₁.options s₁.fieldNames) :
    (s₁.columnsFrom count i fields).mapError SchemaError.withoutOptions =
      (s₂.columnsFrom count i fields).mapError SchemaError.withoutOptions := by
  induction count generalizing i fields with
  | zero => rfl
  | succ count ih =>
    have hrest : ∀ fields, (s₁.columnsFrom count (i + 1) fields).mapError
        SchemaError.withoutOptions = (s₂.columnsFrom count (i + 1) fields).mapError
          SchemaError.withoutOptions := fun fields => ih (by omega)
    unfold columnsFrom
    rw [← h.hasRecord_eq i]
    split
    · rename_i hrecord
      have hcolumn := h.decodeColumn_eq (by omega) hrecord
      simp only [except_mapError_bind, hcolumn, hrest]
    · cases fields with
      | nil => rfl
      | cons field fields => simp only [except_mapError_bind, hrest]

theorem columns_eq (h : Agree s₁ s₂) :
    s₁.columns.mapError SchemaError.withoutOptions =
      s₂.columns.mapError SchemaError.withoutOptions := by
  have hend : 0 + (s₁.fields.length + countNonPhysical s₁.options s₁.fieldNames) ≤
      s₁.fields.length + countNonPhysical s₁.options s₁.fieldNames := by omega
  rw [columns, columns, h.columnsFrom_eq hend, h.fields, h.countNonPhysical_eq]

theorem get?_of_isWatermarkKey (h : Agree s₁ s₂) {key : String} (hkey : isWatermarkKey key) :
    s₁.options.get? key = s₂.options.get? key := by
  have hget := congrArg (fun o : Options => o.get? key) h.watermark
  simpa only [watermarkEntries, SortedMap.get?_filter_key, hkey, if_true] using hget

theorem hasWatermark_eq (h : Agree s₁ s₂) :
    s₁.options.hasWatermark = s₂.options.hasWatermark := by
  rw [Bool.eq_iff_iff, Options.hasWatermark_iff, Options.hasWatermark_iff]
  refine exists_congr (fun key => exists_congr (fun value => and_congr_left (fun hkey => ?_)))
  rw [h.get?_of_isWatermarkKey hkey]

theorem watermark_eq (h : Agree s₁ s₂) : s₁.watermark = s₂.watermark := by
  have hget : ∀ f, s₁.options.get? (watermarkKey f) = s₂.options.get? (watermarkKey f) :=
    fun f => h.get?_of_isWatermarkKey (isWatermarkKey_watermarkKey f)
  simp only [StoredTable.watermark, decodeWatermark, Options.require, h.hasWatermark_eq, hget]

end Agree

/-- Only the names and details of records and the watermark's entries have a say in the schema. -/
theorem schemaOutcome_eq_of_agree {s₁ s₂ : StoredTable} (h : Agree s₁ s₂) :
    s₁.schemaOutcome = s₂.schemaOutcome := by
  rw [schemaOutcome_eq, schemaOutcome_eq, h.columns_eq, h.watermark_eq, h.primaryKeys]

/-- A table with one computed column and nothing else in its options. -/
def plainTable : StoredTable where
  fields := [⟨"id", ⟨.bigInt, false⟩⟩]
  primaryKeys := ["id"]
  options := .ofList [("schema.1.name", "n"), ("schema.1.data-type", "INT"),
    ("schema.1.expr", "id")]
  comment := none

/-- The same table with an option of its user, entries that repeat the name of its field and stray
reserved keys, one of them at an index that has no record. -/
def crowdedTable : StoredTable :=
  { plainTable with
    options := plainTable.options.insertMany [("bucket", "4"), ("schema.0.name", "id"),
      ("schema.03.name", "id"), ("schema.2.expr", "id"), ("schema.owner", "ops")] }

theorem schemaOutcome_eq_of_agree_crowded :
    Agree plainTable crowdedTable ∧ plainTable.schemaOutcome = crowdedTable.schemaOutcome := by
  have h : Agree plainTable crowdedTable :=
    ⟨rfl, rfl, by decide +kernel, by decide +kernel, by decide +kernel⟩
  exact ⟨h, schemaOutcome_eq_of_agree h⟩

end StoredTable

end FlatSchema
