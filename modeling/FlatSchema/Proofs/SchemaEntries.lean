import FlatSchema.Proofs.Restoration

namespace FlatSchema

namespace SchemaDraft

/-- What the options of a schema hold. Physical columns have no entries. -/
inductive Entry (d : SchemaDraft) : String → String → Prop where
  | name {i : Nat} {c : NonPhysicalColumn} (here : d.columns[i]? = some (.nonPhysical c)) :
      Entry d (columnKey i .name) c.name
  | dataType {i : Nat} {c : NonPhysicalColumn} (here : d.columns[i]? = some (.nonPhysical c)) :
      Entry d (columnKey i .dataType) c.dataType.text
  | expression {i : Nat} {c : ComputedColumn}
      (here : d.columns[i]? = some (.nonPhysical (.computed c))) :
      Entry d (columnKey i .expression) c.expression
  | metadata {i : Nat} {c : MetadataColumn}
      (here : d.columns[i]? = some (.nonPhysical (.metadata c))) :
      Entry d (columnKey i .metadata) c.metadataKey
  | isVirtual {i : Nat} {c : MetadataColumn}
      (here : d.columns[i]? = some (.nonPhysical (.metadata c))) :
      Entry d (columnKey i .isVirtual) (if c.isVirtual then "true" else "false")
  | rowtime {w : Watermark} (here : d.watermark = some w) :
      Entry d (watermarkKey .rowtime) w.rowtime
  | watermarkExpression {w : Watermark} (here : d.watermark = some w) :
      Entry d (watermarkKey .expression) w.expression
  | watermarkType {w : Watermark} (here : d.watermark = some w) :
      Entry d (watermarkKey .dataType) w.dataType.text

variable {d : SchemaDraft} {key value : String}

theorem Entry.of_column {i : Nat} {c : NonPhysicalColumn} {f : ColumnField}
    (here : d.columns[i]? = some (.nonPhysical c)) (held : c.value? f = some value) :
    d.Entry (columnKey i f) value := by
  cases f with
  | name =>
    cases held
    exact .name here
  | dataType =>
    cases held
    exact .dataType here
  | expression =>
    cases c <;> cases held
    exact .expression here
  | metadata =>
    cases c <;> cases held
    exact .metadata here
  | isVirtual =>
    cases c <;> cases held
    exact .isVirtual here

theorem Entry.of_watermark {w : Watermark} (here : d.watermark = some w) (f : WatermarkField) :
    d.Entry (watermarkKey f) (w.value f) := by
  cases f with
  | rowtime => exact .rowtime here
  | expression => exact .watermarkExpression here
  | dataType => exact .watermarkType here

/-- Every entry is a field of a column's record or of the watermark's. -/
theorem Entry.column_or_watermark (h : d.Entry key value) :
    (∃ i c f, d.columns[i]? = some (.nonPhysical c) ∧ key = columnKey i f ∧
      c.value? f = some value) ∨
    ∃ w f, d.watermark = some w ∧ key = watermarkKey f ∧ w.value f = value := by
  cases h with
  | name here => exact .inl ⟨_, _, .name, here, rfl, rfl⟩
  | dataType here => exact .inl ⟨_, _, .dataType, here, rfl, rfl⟩
  | expression here => exact .inl ⟨_, _, .expression, here, rfl, rfl⟩
  | metadata here => exact .inl ⟨_, _, .metadata, here, rfl, rfl⟩
  | isVirtual here => exact .inl ⟨_, _, .isVirtual, here, rfl, rfl⟩
  | rowtime here => exact .inr ⟨_, .rowtime, here, rfl, rfl⟩
  | watermarkExpression here => exact .inr ⟨_, .expression, here, rfl, rfl⟩
  | watermarkType here => exact .inr ⟨_, .dataType, here, rfl, rfl⟩

end SchemaDraft

namespace Options.Describes

variable {s : TableSchema} {options : Options}

theorem get?_of_nonPhysical (h : options.Describes s) {i : Nat} {c : NonPhysicalColumn}
    (here : s.columns[i]? = some (.nonPhysical c)) (f : ColumnField) :
    options.get? (columnKey i f) = c.value? f := by
  rw [h.column i f, here]
  rfl

/-- Options that describe a schema and hold reserved keys only hold just its entries. -/
theorem get?_eq_some_iff_entry (h : options.Describes s)
    (hreserved : ∀ key value, options.get? key = some value → isReserved key)
    {key value : String} : options.get? key = some value ↔ s.draft.Entry key value := by
  constructor
  · intro hget
    rcases h.only key value hget (hreserved key value hget) with ⟨i, f, rfl⟩ | ⟨f, rfl⟩
    · rw [h.column i f] at hget
      obtain ⟨c, hc, hvalue⟩ := Option.bind_eq_some_iff.mp hget
      obtain ⟨column, hcolumn, hc⟩ := Option.bind_eq_some_iff.mp hc
      cases column <;> cases hc
      exact .of_column hcolumn hvalue
    · rw [h.watermark f] at hget
      obtain ⟨w, hw, rfl⟩ := Option.map_eq_some_iff.mp hget
      exact .of_watermark hw f
  · intro hentry
    rcases hentry.column_or_watermark with ⟨i, c, f, here, rfl, hvalue⟩ | ⟨w, f, here, rfl, rfl⟩
    · rw [h.get?_of_nonPhysical here, hvalue]
    · rw [h.watermark f, show s.watermark = some w from here]
      rfl

/-- The names that are counted in the options of a schema are those of its non-physical columns. -/
theorem mem_nameKeys_iff (h : options.Describes s) {key : String} :
    key ∈ (nonPhysicalColumns s.columns).map (fun c => columnKey (s.place c) .name) ↔
      ∃ name, options.get? key = some name ∧
        isRecordName (physicalNames s.columns) key name := by
  simp only [List.mem_map, isRecordName_iff]
  constructor
  · rintro ⟨c, hc, rfl⟩
    obtain ⟨i, here⟩ := mem_nonPhysicalColumns.mp hc
    rw [TableSchema.place_eq here]
    exact ⟨c.name, h.get?_of_nonPhysical here .name, isColumnNameKey_columnKey i,
      TableSchema.name_not_mem_physicalNames here⟩
  · rintro ⟨name, hname, hkey, -⟩
    rcases h.only key name hname (isReserved_of_isColumnNameKey hkey) with ⟨i, f, rfl⟩ | ⟨f, rfl⟩
    · cases field_eq_of_isColumnNameKey hkey
      obtain ⟨c, hc, -⟩ := Option.bind_eq_some_iff.mp ((h.column i .name).symm.trans hname)
      obtain ⟨column, hcolumn, hc⟩ := Option.bind_eq_some_iff.mp hc
      cases column <;> cases hc
      exact ⟨c, mem_nonPhysicalColumns.mpr ⟨i, hcolumn⟩, by rw [TableSchema.place_eq hcolumn]⟩
    · rw [isColumnNameKey_watermarkKey] at hkey
      cases hkey

theorem countNonPhysical_eq (h : options.Describes s) :
    countNonPhysical options (physicalNames s.columns) = (nonPhysicalColumns s.columns).length := by
  rw [countNonPhysical_eq_length (nodup_nameKeys s.nodup_places) (fun _ => h.mem_nameKeys_iff),
    List.length_map]

end Options.Describes

namespace SchemaDraft

/-- A schema that was built has options, which hold its entries and nothing else. So there is no
entry at the place of a physical column, and as many names are counted as there are non-physical
columns. -/
theorem options_of_build {d : SchemaDraft} {s : TableSchema} (h : d.build = .ok s) :
    ∃ options, s.options = .ok options ∧
      (∀ key value, options.get? key = some value ↔ d.Entry key value) ∧
      (∀ i p, d.columns[i]? = some (.physical p) →
        ∀ f, options.get? (columnKey i f) = none) ∧
      countNonPhysical options (physicalNames d.columns) =
        (nonPhysicalColumns d.columns).length := by
  obtain rfl := draft_of_build h
  obtain ⟨options, hoptions, hdescribes, hreserved⟩ := s.options_eq_ok
  refine ⟨options, hoptions, fun _ _ => hdescribes.get?_eq_some_iff_entry hreserved, ?_,
    hdescribes.countNonPhysical_eq⟩
  intro i p here f
  rw [hdescribes.column i f, show s.columns[i]? = some (.physical p) from here]
  rfl

def readingDay : ComputedColumn := ⟨"day", ⟨.date, true⟩, "CAST(ts AS DATE)"⟩

/-- The time of a reading, which the connector knows under another name. -/
def readingTime : MetadataColumn := .withAlias "ts" ⟨.timestamp 3, true⟩ "timestamp" false

def readingWatermark : Watermark := ⟨"ts", "ts - INTERVAL '5' SECOND", ⟨.timestamp 3, true⟩⟩

/-- Readings with a column of each kind, of which the physical one stands in the middle. -/
def readings : SchemaDraft where
  columns := [.nonPhysical (.computed readingDay), .physical ⟨"id", ⟨.bigInt, false⟩⟩,
    .nonPhysical (.metadata readingTime)]
  watermark := some readingWatermark
  primaryKey := ["id"]

theorem options_of_build_readings : ∃ s, readings.build = .ok s ∧
    ∃ options, s.options = .ok options ∧
      options.get? "schema.0.expr" = some "CAST(ts AS DATE)" ∧
      options.get? "schema.1.name" = none ∧
      options.get? "schema.2.metadata" = some "timestamp" ∧
      options.get? "schema.2.virtual" = some "false" ∧
      options.get? "schema.watermark.0.rowtime" = some "ts" ∧
      countNonPhysical options ["id"] = 2 := by
  obtain ⟨s, hs⟩ : ∃ s, readings.build = .ok s :=
    ⟨⟨readings.columns, readings.watermark, readings.primaryKey, by decide, by decide, by decide⟩,
      build_eq_ok_iff.mpr rfl⟩
  obtain ⟨options, hoptions, hentries, hphysical, hcount⟩ := options_of_build hs
  exact ⟨s, hs, options, hoptions,
    (hentries _ _).mpr (.expression (i := 0) (c := readingDay) rfl),
    hphysical 1 _ rfl .name, (hentries _ _).mpr (.metadata (i := 2) (c := readingTime) rfl),
    (hentries _ _).mpr (.isVirtual (i := 2) (c := readingTime) rfl),
    (hentries _ _).mpr (.rowtime (w := readingWatermark) rfl), hcount⟩

end SchemaDraft

end FlatSchema
