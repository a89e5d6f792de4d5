import FlatSchema.Proofs.Layout
import FlatSchema.Proofs.SchemaOptions

namespace FlatSchema

namespace StoredTable

theorem watermark_eq_ok_iff {s : StoredTable} {w : Option Watermark} :
    s.watermark = .ok w ↔ (s.options.hasWatermark ↔ w.isSome) ∧
      ∀ v ∈ w, decodeWatermark s.options = .ok v := by
  unfold StoredTable.watermark
  split
  · rename_i hw
    rw [except_map_eq_ok_iff]
    constructor
    · intro h
      obtain ⟨v, hv, rfl⟩ := h
      simp [hw, hv]
    · intro h
      obtain ⟨hs, hd⟩ := h
      obtain ⟨v, rfl⟩ := Option.isSome_iff_exists.mp (hs.mp hw)
      exact ⟨v, hd v rfl, rfl⟩
  · rename_i hw
    cases w <;> simp [hw]

/-- A flat form is restored just to the table whose parts it gives one by one. -/
theorem restore_eq_ok_iff {s : StoredTable} {t : CatalogTable} :
    s.restore = .ok t ↔ s.columns = .ok t.schema.columns ∧ s.watermark = .ok t.schema.watermark ∧
      t.schema.primaryKey = s.primaryKeys ∧ t.options = s.options.user ∧ t.comment = s.comment := by
  unfold restore
  simp only [except_bind_eq_ok_iff, SchemaDraft.build_eq_ok_iff, Except.ok.injEq]
  constructor
  · intro h
    obtain ⟨columns, hc, watermark, hw, schema, hs, rfl⟩ := h
    simp only [TableSchema.draft, SchemaDraft.mk.injEq] at hs
    obtain ⟨rfl, rfl, hk⟩ := hs
    exact ⟨hc, hw, hk, rfl, rfl⟩
  · intro h
    obtain ⟨hc, hw, hk, ho, hm⟩ := h
    refine ⟨_, hc, _, hw, t.schema, by simp [TableSchema.draft, hk], ?_⟩
    cases t
    simp_all

end StoredTable

namespace TableSchema

/-- Schemas whose types outside of the physical columns are canonical. -/
structure FlatCanonical (s : TableSchema) : Prop where
  columns : ∀ c ∈ nonPhysicalColumns s.columns, c.Canonical
  watermark : ∀ w ∈ s.watermark, w.Canonical

theorem name_not_mem_physicalNames {s : TableSchema} {i : Nat} {c : NonPhysicalColumn}
    (h : s.columns[i]? = some (.nonPhysical c)) : c.name ∉ physicalNames s.columns := by
  intro hm
  obtain ⟨p, hp, he⟩ := List.mem_map.mp hm
  obtain ⟨j, hj⟩ := mem_physicalColumns.mp hp
  have hij := index_eq_of_name_eq h hj he.symm
  rw [hij, hj] at h
  cases h

/-- The flat form of a schema with the options that describe it. -/
def flat (s : TableSchema) (options : Options) (comment : Option String) : StoredTable where
  fields := physicalColumns s.columns
  primaryKeys := s.primaryKey
  options := options
  comment := comment

variable {s : TableSchema} {options : Options} {comment : Option String}

theorem flat_fits (ho : options.Describes s) (hs : s.FlatCanonical) {i : Nat} {c : Column}
    (h : s.columns[i]? = some c) : (s.flat options comment).Fits i c := by
  have hentry := ho.column i
  rw [h, Option.bind_some] at hentry
  cases c with
  | physical p => simp [StoredTable.Fits, StoredTable.hasRecord, flat, hentry, Column.nonPhysical?]
  | nonPhysical c =>
    have hname := name_not_mem_physicalNames h
    refine ⟨?_, decodeColumn_of_entries hentry (hs.columns c (mem_nonPhysicalColumns.mpr ⟨i, h⟩))⟩
    simpa [StoredTable.hasRecord, StoredTable.fieldNames, flat, hentry, Column.nonPhysical?,
      NonPhysicalColumn.value?, physicalNames] using hname

theorem columns_flat (ho : options.Describes s) (hs : s.FlatCanonical) :
    (s.flat options comment).columns = .ok s.columns := by
  refine StoredTable.columns_eq_ok_iff.mpr
    ⟨.of_fits (fun k c hk => by simpa using flat_fits ho hs hk), rfl, ?_⟩
  intro key hk
  obtain ⟨name, hn, hkey, _⟩ := StoredTable.mem_countedKeys.mp hk
  rcases ho.only key name hn (isReserved_of_isColumnNameKey hkey) with ⟨i, f, rfl⟩ | ⟨f, rfl⟩
  · cases field_eq_of_isColumnNameKey hkey
    refine ⟨i, ?_, rfl⟩
    have hi := (ho.column i .name).symm.trans hn
    obtain ⟨c, hc, _⟩ := Option.bind_eq_some_iff.mp hi
    obtain ⟨column, hcolumn, _⟩ := Option.bind_eq_some_iff.mp hc
    exact (List.getElem?_eq_some_iff.mp hcolumn).1
  · rw [isColumnNameKey_watermarkKey] at hkey
    cases hkey

theorem watermark_flat (ho : options.Describes s) (hs : s.FlatCanonical) :
    (s.flat options comment).watermark = .ok s.watermark := by
  refine StoredTable.watermark_eq_ok_iff.mpr ⟨?_, ?_⟩
  · rw [Options.hasWatermark_iff]
    constructor
    · intro h
      obtain ⟨key, value, hv, hk⟩ := h
      rcases ho.only key value hv (isReserved_of_isWatermarkKey hk) with ⟨i, f, rfl⟩ | ⟨f, rfl⟩
      · rw [isWatermarkKey_columnKey] at hk
        cases hk
      · obtain ⟨w, hw, _⟩ := Option.map_eq_some_iff.mp ((ho.watermark f).symm.trans hv)
        simp [hw]
    · intro hw
      obtain ⟨w, hw⟩ := Option.isSome_iff_exists.mp hw
      exact ⟨watermarkKey .rowtime, w.rowtime, by rw [flat, ho.watermark, hw]; rfl,
        isWatermarkKey_watermarkKey .rowtime⟩
  · intro w hw
    exact decodeWatermark_of_entries (fun f => by rw [flat, ho.watermark, hw]; rfl)
      (hs.watermark w hw)

/-- Options that describe a schema restore it, whatever the user's options beside them are. -/
theorem restore_flat (ho : options.Describes s) (hs : s.FlatCanonical) :
    (s.flat options comment).restore = .ok ⟨s, options.user, comment⟩ :=
  StoredTable.restore_eq_ok_iff.mpr
    ⟨columns_flat ho hs, watermark_flat ho hs, rfl, rfl, rfl⟩

end TableSchema

namespace CatalogTable

/-- Under the reserved keys a flat form holds the schema's options, elsewhere the user's. -/
theorem get?_user_union {t : CatalogTable} {options : Options} {key : String}
    (h : ∀ value, options.get? key = some value → isReserved key) :
    (t.options.user.union options).get? key =
      if isReserved key then options.get? key else t.options.get? key := by
  rw [SortedMap.get?_union, Options.get?_user]
  split
  · exact Option.or_none
  · rename_i hr
    cases ho : options.get? key with
    | none => rfl
    | some value => exact absurd (h value ho) hr

/-- The flat form of a table is that of its schema, with options that describe it. -/
theorem toStored_eq_ok (t : CatalogTable) :
    ∃ options, t.toStored = .ok (t.schema.flat options t.comment) ∧
      options.Describes t.schema ∧ options.user = t.options.user := by
  obtain ⟨options, ho, hd, hr⟩ := t.schema.options_eq_ok
  have hget := fun key => get?_user_union (t := t) (hr key)
  refine ⟨t.options.user.union options, by rw [toStored, ho]; rfl, ⟨?_, ?_, ?_⟩, ?_⟩
  · intro i f
    rw [hget, if_pos (isReserved_columnKey i f)]
    exact hd.column i f
  · intro f
    rw [hget, if_pos (isReserved_watermarkKey f)]
    exact hd.watermark f
  · intro key value hv hk
    rw [hget, if_pos hk] at hv
    exact hd.only key value hv hk
  · refine SortedMap.ext_get? (fun key => ?_)
    rw [Options.get?_user, Options.get?_user, hget]
    split <;> rfl

/-- Flattening never fails, and the flat form stands for the table less the user options that the
schema's keys are reserved from. -/
theorem exists_toStored {t : CatalogTable} (h : t.schema.FlatCanonical) :
    ∃ s, t.toStored = .ok s ∧ s.restore = .ok { t with options := t.options.user } := by
  obtain ⟨options, ht, hd, hu⟩ := t.toStored_eq_ok
  exact ⟨_, ht, by rw [TableSchema.restore_flat hd h, hu]⟩

theorem get?_of_unreserved {options : Options} (h : ∀ key ∈ options.keys, isReserved key = false)
    {key : String} (hkey : isReserved key) : options.get? key = none := by
  rw [Option.eq_none_iff_forall_ne_some]
  intro value hvalue
  rw [h key (SortedMap.mem_keys_iff.mpr ⟨value, hvalue⟩)] at hkey
  cases hkey

theorem user_eq_self {options : Options} (h : ∀ key ∈ options.keys, isReserved key = false) :
    options.user = options := by
  refine SortedMap.ext_get? (fun key => ?_)
  rw [Options.get?_user]
  split
  · rename_i hr
    rw [get?_of_unreserved h hr]
  · rfl

/-- A table survives being stored, but for the user's options under reserved keys. -/
theorem restore_toStored (t : CatalogTable) (h : t.schema.FlatCanonical) :
    (∃ s, t.toStored = .ok s ∧ s.restore = .ok { t with options := t.options.user }) ∧
      ((∀ key ∈ t.options.keys, isReserved key = false) →
        ∃ s, t.toStored = .ok s ∧ s.restore = .ok t) := by
  refine ⟨exists_toStored h, fun hu => ?_⟩
  obtain ⟨s, ht, hr⟩ := exists_toStored h
  rw [user_eq_self hu] at hr
  exact ⟨s, ht, hr⟩

/-- Orders with the time of their event, which the connector knows under another name. -/
def ordersSchema : TableSchema where
  columns := [.nonPhysical (.metadata (.withAlias "ts" ⟨.timestamp 3, true⟩ "timestamp" true)),
    .physical ⟨"id", ⟨.bigInt, false⟩⟩]
  watermark := some ⟨"ts", "ts - INTERVAL '5' SECOND", ⟨.timestamp 3, true⟩⟩
  primaryKey := ["id"]
  nodup_names := by decide
  primaryKey_physical := by decide
  rowtime_known := by decide

/-- Orders whose user has set options that look like the schema's own. -/
def ordersTable : CatalogTable where
  schema := ordersSchema
  options := .ofList [("bucket", "4"), ("schema.0.name", "id"), ("schema.watermark", "")]
  comment := some "customer orders"

theorem restore_toStored_orders : ordersTable.schema.FlatCanonical ∧
    (∃ s, ordersTable.toStored = .ok s ∧
      s.restore = .ok { ordersTable with options := .ofList [("bucket", "4")] }) ∧
    ∃ s, CatalogTable.toStored { ordersTable with options := .ofList [("bucket", "4")] } = .ok s ∧
      s.restore = .ok { ordersTable with options := .ofList [("bucket", "4")] } := by
  have hc : ordersTable.schema.FlatCanonical := ⟨by decide, by decide⟩
  have hu : ordersTable.options.user = .ofList [("bucket", "4")] := by decide
  refine ⟨hc, ?_, (restore_toStored { ordersTable with options := .ofList [("bucket", "4")] }
    hc).2 (by decide)⟩
  rw [← hu]
  exact (restore_toStored ordersTable hc).1

end CatalogTable

namespace StoredTable

variable {s : StoredTable} {columns : List Column}

theorem length_columns (h : s.columns = .ok columns) :
    columns.length = s.fields.length + countNonPhysical s.options s.fieldNames :=
  (columnsFrom_eq_ok_iff.mp h).2.1

/-- What is counted beside the fields is the number of non-physical columns. -/
theorem countNonPhysical_of_columns (h : s.columns = .ok columns) :
    countNonPhysical s.options s.fieldNames = (nonPhysicalColumns columns).length := by
  have hlength := length_columns h
  have hfields := (columns_eq_ok_iff.mp h).2.1
  rw [length_eq_physical_add_nonPhysical, hfields] at hlength
  exact (Nat.add_left_cancel hlength).symm

/-- A counted record stands in the columns at the index that its key tells. -/
theorem column_of_record (h : s.columns = .ok columns) {key name : String}
    (hv : s.options.get? key = some name) (hk : isColumnNameKey key) (hn : name ∉ s.fieldNames) :
    ∃ i < columns.length, key = columnKey i .name ∧ ∃ c, decodeColumn s.options i = .ok c ∧
      columns[i]? = some (.nonPhysical c) ∧ c.name = name := by
  obtain ⟨hlay, _, hcount⟩ := columns_eq_ok_iff.mp h
  have hkey := mem_countedKeys.mpr ⟨name, hv, hk, hn⟩
  obtain ⟨i, hi, rfl⟩ := hcount key hkey
  have hfits := hlay.fits (List.getElem?_eq_getElem hi)
  rw [Nat.zero_add] at hfits
  refine ⟨i, hi, rfl, ?_⟩
  cases hc : columns[i] with
  | physical p =>
    rw [hc] at hfits
    have := hasRecord_iff.mpr hkey
    rw [hfits] at this
    cases this
  | nonPhysical c =>
    rw [hc] at hfits
    have hname := (decodeColumn_eq_ok_iff.mp hfits.2).name
    rw [hv] at hname
    exact ⟨c, hfits.2, by rw [List.getElem?_eq_getElem hi, hc], (Option.some.inj hname).symm⟩

/-- A non-physical column among the columns is decoded at its own index. -/
theorem decodeColumn_of_column (h : s.columns = .ok columns) {i : Nat} {c : NonPhysicalColumn}
    (hc : columns[i]? = some (.nonPhysical c)) : decodeColumn s.options i = .ok c := by
  have hfits := (columns_eq_ok_iff.mp h).1.fits hc
  rw [Nat.zero_add] at hfits
  exact hfits.2

/-- A non-physical column among the columns is that of a counted record. -/
theorem record_of_column (h : s.columns = .ok columns) {i : Nat} {c : NonPhysicalColumn}
    (hc : columns[i]? = some (.nonPhysical c)) :
    s.options.get? (columnKey i .name) = some c.name ∧ c.name ∉ s.fieldNames := by
  have hfits := (columns_eq_ok_iff.mp h).1.fits hc
  rw [Nat.zero_add] at hfits
  have hname := (decodeColumn_eq_ok_iff.mp hfits.2).name
  obtain ⟨name, hv, _, hn⟩ := mem_countedKeys.mp (hasRecord_iff.mp hfits.1)
  rw [hname] at hv
  cases hv
  exact ⟨hname, hn⟩

/-- Success leaves no field and no record behind and puts each where it belongs. -/
theorem restore_accounts {t : CatalogTable} (h : s.restore = .ok t) :
    t.schema.columns.length = s.fields.length + countNonPhysical s.options s.fieldNames ∧
    physicalColumns t.schema.columns = s.fields ∧
    (∀ key name, s.options.get? key = some name → isColumnNameKey key → name ∉ s.fieldNames →
      ∃ i < s.fields.length + countNonPhysical s.options s.fieldNames, key = columnKey i .name ∧
        ∃ c, decodeColumn s.options i = .ok c ∧
          t.schema.columns[i]? = some (.nonPhysical c) ∧ c.name = name) ∧
    (∀ i c, t.schema.columns[i]? = some (.nonPhysical c) →
      s.options.get? (columnKey i .name) = some c.name ∧ c.name ∉ s.fieldNames) ∧
    (t.schema.watermark.isSome ↔ ∃ key ∈ s.options.keys, isWatermarkKey key) ∧
    (∀ w, t.schema.watermark = some w → decodeWatermark s.options = .ok w) ∧
    ∀ key value, t.options.get? key = some value ↔
      s.options.get? key = some value ∧ isReserved key = false := by
  obtain ⟨hc, hw, _, ho, _⟩ := restore_eq_ok_iff.mp h
  obtain ⟨hiff, hdecoded⟩ := watermark_eq_ok_iff.mp hw
  refine ⟨length_columns hc, (columns_eq_ok_iff.mp hc).2.1, ?_, fun i c => record_of_column hc,
    ?_, hdecoded, ?_⟩
  · intro key name hv hk hn
    rw [← length_columns hc]
    exact column_of_record hc hv hk hn
  · rw [← hiff, Options.hasWatermark, List.any_eq_true]
  · intro key value
    rw [ho, Options.get?_user]
    by_cases hr : isReserved key <;> simp [hr]

/-- Stored orders with types in other spellings and an entry that repeats the name of a field. -/
def storedOrders : StoredTable where
  fields := [⟨"id", ⟨.bigInt, false⟩⟩]
  primaryKeys := ["id"]
  options := .ofList [("bucket", "4"), ("schema.0.data-type", "timestamp(3)"),
    ("schema.0.metadata", "timestamp"), ("schema.0.name", "ts"), ("schema.0.virtual", "TRUE"),
    ("schema.01.name", "id"), ("schema.watermark.0.rowtime", "ts"),
    ("schema.watermark.0.strategy.data-type", "TIMESTAMP( 3 )"),
    ("schema.watermark.0.strategy.expr", "ts - INTERVAL '5' SECOND")]
  comment := none

theorem restore_accounts_orders :
    storedOrders.restore = .ok ⟨CatalogTable.ordersSchema, .ofList [("bucket", "4")], none⟩ ∧
      CatalogTable.ordersSchema.columns.length = storedOrders.fields.length +
        countNonPhysical storedOrders.options storedOrders.fieldNames := by
  have hr : storedOrders.restore =
      .ok ⟨CatalogTable.ordersSchema, .ofList [("bucket", "4")], none⟩ :=
    restore_eq_ok_iff.mpr
      ⟨by decide +kernel, by decide +kernel, rfl, by decide +kernel, rfl⟩
  exact ⟨hr, (restore_accounts hr).1⟩

end StoredTable

end FlatSchema
