import FlatSchema.ChangeRecord
import FlatSchema.Proofs.Validation

namespace FlatSchema

theorem physicalColumns_map_physical (fields : List PhysicalColumn) :
    physicalColumns (fields.map .physical) = fields := by
  rw [physicalColumns, List.filterMap_map]
  exact List.filterMap_some

namespace StoredTable

variable {s : StoredTable}

/-- Without reserved options each index takes a field, and there are as many indices as fields. -/
theorem columns_of_unreserved (h : ∀ key ∈ s.options.keys, isReserved key = false) :
    s.columns = .ok (s.fields.map .physical) := by
  refine columns_eq_ok_iff.mpr ⟨.of_fits ?_, physicalColumns_map_physical s.fields, ?_⟩
  · intro i c hc
    obtain ⟨p, -, rfl⟩ := List.mem_map.mp (List.mem_of_getElem? hc)
    change s.hasRecord (0 + i) = false
    rw [hasRecord, CatalogTable.get?_of_unreserved h (isReserved_columnKey _ _)]
    rfl
  · intro key hkey
    obtain ⟨name, hname, hshape, -⟩ := mem_countedKeys.mp hkey
    rw [CatalogTable.get?_of_unreserved h (isReserved_of_isColumnNameKey hshape)] at hname
    cases hname

theorem watermark_of_unreserved (h : ∀ key ∈ s.options.keys, isReserved key = false) :
    s.watermark = .ok none := by
  have habsent : s.options.hasWatermark = false := by
    rw [Bool.eq_false_iff]
    intro hpresent
    obtain ⟨key, value, hvalue, hkey⟩ := Options.hasWatermark_iff.mp hpresent
    rw [CatalogTable.get?_of_unreserved h (isReserved_of_isWatermarkKey hkey)] at hvalue
    cases hvalue
  exact watermark_eq_ok_iff.mpr (by simp [habsent])

/-- A flat form without reserved options stands for its fields, or has their fault. -/
theorem restore_of_unreserved (h : ∀ key ∈ s.options.keys, isReserved key = false) :
    s.restore = (SchemaDraft.build ⟨s.fields.map .physical, none, s.primaryKeys⟩).map
      (fun schema => ⟨schema, s.options, s.comment⟩) := by
  rw [restore, columns_of_unreserved h, watermark_of_unreserved h, CatalogTable.user_eq_self h]
  simp only [except_bind_ok]
  cases SchemaDraft.build ⟨s.fields.map .physical, none, s.primaryKeys⟩ <;> rfl

end StoredTable

namespace ChangeRecord

/-- The schema that a record tells, before it is checked. -/
def draft (r : ChangeRecord) : SchemaDraft := ⟨r.fieldTypes.map .physical, none, r.primaryKeys⟩

def fieldNames (r : ChangeRecord) : List String := r.fieldTypes.map PhysicalColumn.name

theorem columnNames_draft (r : ChangeRecord) : columnNames r.draft.columns = r.fieldNames := by
  rw [draft, columnNames, List.map_map]
  rfl

theorem physicalNames_draft (r : ChangeRecord) : physicalNames r.draft.columns = r.fieldNames := by
  rw [draft, physicalNames, physicalColumns_map_physical, fieldNames]

theorem sound_draft_iff {r : ChangeRecord} :
    r.draft.Sound ↔ r.fieldNames.Nodup ∧ ∀ key ∈ r.primaryKeys, key ∈ r.fieldNames := by
  constructor
  · intro h
    have hdistinct := h.distinct
    have hkeyed := h.keyed
    rw [columnNames_draft] at hdistinct
    rw [physicalNames_draft] at hkeyed
    exact ⟨hdistinct, hkeyed⟩
  · intro h
    obtain ⟨hdistinct, hkeyed⟩ := h
    refine ⟨by rwa [columnNames_draft], by rwa [physicalNames_draft], ?_⟩
    intro w hw
    cases hw

/-- The new table of a record is restored just if the fields have distinct names and the primary
keys are among them. It then has these fields as its columns, and every option it was given. -/
theorem restore_newTable (r : ChangeRecord) {config : Options}
    (hconfig : ∀ key ∈ config.keys, isReserved key = false) :
    ((∃ t, (r.newTable config).restore = .ok t) ↔
      r.fieldNames.Nodup ∧ ∀ key ∈ r.primaryKeys, key ∈ r.fieldNames) ∧
    ∀ t, (r.newTable config).restore = .ok t →
      t.schema.columns = r.fieldTypes.map .physical ∧ t.schema.primaryKey = r.primaryKeys ∧
        t.schema.watermark = none ∧ t.comment = none ∧ t.options = config := by
  have hrestore : (r.newTable config).restore =
      r.draft.build.map (fun schema => ⟨schema, config, none⟩) :=
    StoredTable.restore_of_unreserved (s := r.newTable config) hconfig
  refine ⟨?_, ?_⟩
  · rw [← sound_draft_iff, ← SchemaDraft.exists_build_iff, hrestore]
    simp only [except_map_eq_ok_iff]
    constructor
    · intro h
      obtain ⟨_, schema, hschema, -⟩ := h
      exact ⟨schema, hschema⟩
    · intro h
      obtain ⟨schema, hschema⟩ := h
      exact ⟨_, schema, hschema, rfl⟩
  · intro t ht
    rw [hrestore, except_map_eq_ok_iff] at ht
    obtain ⟨schema, hschema, rfl⟩ := ht
    have hdraft := SchemaDraft.draft_of_build hschema
    exact ⟨congrArg SchemaDraft.columns hdraft, congrArg SchemaDraft.primaryKey hdraft,
      congrArg SchemaDraft.watermark hdraft, rfl, rfl⟩

/-- A payment with a field that is named like a key. -/
def paymentRecord : ChangeRecord where
  fieldTypes := [⟨"account", ⟨.bigInt, false⟩⟩, ⟨"booked", ⟨.timestamp 3, false⟩⟩,
    ⟨"schema.0.name", ⟨.string, true⟩⟩]
  primaryKeys := ["booked", "account"]

/-- Options that are named almost like those of a schema. -/
def paymentConfig : Options :=
  .ofList [("bucket", "2"), ("schema", "7"), ("schemas.0.name", "account"),
    ("Schema.watermark.0.rowtime", "booked")]

theorem restore_newTable_payments :
    (∀ key ∈ paymentConfig.keys, isReserved key = false) ∧
    (∃ t, (paymentRecord.newTable paymentConfig).restore = .ok t ∧
      t.schema.columns = paymentRecord.fieldTypes.map .physical ∧ t.options = paymentConfig) ∧
    (¬∃ t, (ChangeRecord.newTable { paymentRecord with primaryKeys := ["account", "place"] }
      paymentConfig).restore = .ok t) ∧
    ¬∃ t, (ChangeRecord.newTable { paymentRecord with
      fieldTypes := paymentRecord.fieldTypes ++ [⟨"account", ⟨.int, true⟩⟩] }
      paymentConfig).restore = .ok t := by
  have hconfig : ∀ key ∈ paymentConfig.keys, isReserved key = false := by decide +kernel
  obtain ⟨hrestored, hparts⟩ := restore_newTable paymentRecord hconfig
  obtain ⟨t, ht⟩ := hrestored.mpr ⟨by decide, by decide⟩
  obtain ⟨hcolumns, -, -, -, hoptions⟩ := hparts t ht
  refine ⟨hconfig, ⟨t, ht, hcolumns, hoptions⟩, ?_, ?_⟩
  · rw [(restore_newTable _ hconfig).1]
    decide
  · rw [(restore_newTable _ hconfig).1]
    decide

end ChangeRecord

end FlatSchema
