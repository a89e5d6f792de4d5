import FlatSchema.Proofs.Restoration

namespace FlatSchema

/-- Only canonical types are read, so only canonical columns are decoded. -/
theorem NonPhysicalColumn.FoundAt.canonical {options : Options} {i : Nat} {c : NonPhysicalColumn}
    (h : c.FoundAt options i) : c.Canonical := by
  obtain ⟨_, _, hread⟩ := h.dataType
  exact TypeDescriptor.canonical_of_ofText? hread

theorem Watermark.canonical_of_decode {options : Options} {w : Watermark}
    (h : decodeWatermark options = .ok w) : w.Canonical := by
  obtain ⟨_, _, _, _, hread⟩ := decodeWatermark_eq_ok_iff.mp h
  exact TypeDescriptor.canonical_of_ofText? hread

theorem Options.user_user (options : Options) : options.user.user = options.user := by
  refine SortedMap.ext_get? (fun key => ?_)
  simp only [Options.get?_user]
  split <;> rfl

namespace StoredTable

/-- Whatever spellings a flat form has, it is restored to canonical types. -/
theorem flatCanonical_of_restore {s : StoredTable} {t : CatalogTable} (h : s.restore = .ok t) :
    t.schema.FlatCanonical := by
  obtain ⟨hcolumns, hwatermark, _⟩ := restore_eq_ok_iff.mp h
  constructor
  · intro c hc
    obtain ⟨i, hi⟩ := mem_nonPhysicalColumns.mp hc
    exact (decodeColumn_eq_ok_iff.mp (decodeColumn_of_column hcolumns hi)).canonical
  · intro w hw
    exact Watermark.canonical_of_decode ((watermark_eq_ok_iff.mp hwatermark).2 w hw)

/-- The flat form of the table that a flat form stands for. -/
def normalize (s : StoredTable) : Except SchemaError StoredTable := do
  let t ← s.restore
  t.toStored

/-- The parts of a flat form that restoring and flattening must hand on as they are. -/
structure SameOutside (s' s : StoredTable) : Prop where
  fields : s'.fields = s.fields
  primaryKeys : s'.primaryKeys = s.primaryKeys
  comment : s'.comment = s.comment
  options : ∀ key, isReserved key = false → s'.options.get? key = s.options.get? key

/-- A table that was restored is flattened to a flat form that differs in the schema's options
only. -/
theorem exists_toStored_of_restore {s : StoredTable} {t : CatalogTable} (h : s.restore = .ok t) :
    ∃ s', t.toStored = .ok s' ∧ s'.SameOutside s ∧ s'.restore = .ok t := by
  obtain ⟨hcolumns, _, hkeys, hoptions, hcomment⟩ := restore_eq_ok_iff.mp h
  obtain ⟨options, hstored, hdescribes, huser⟩ := t.toStored_eq_ok
  -- The restored table has no reserved option left that flattening could drop.
  have hown : options.user = t.options := by rw [huser, hoptions, Options.user_user]
  refine ⟨t.schema.flat options t.comment, hstored, ⟨?_, hkeys, hcomment, ?_⟩, ?_⟩
  · exact (columns_eq_ok_iff.mp hcolumns).2.1
  · intro key hkey
    have hget := congrArg (fun o : Options => o.get? key) (hown.trans hoptions)
    simpa [hkey, TableSchema.flat] using hget
  · rw [TableSchema.restore_flat hdescribes (flatCanonical_of_restore h), hown]

/-- Restoring and flattening a flat form keeps the table for which it stands, and a second time
changes nothing. -/
theorem restore_normalizes {s : StoredTable} {t : CatalogTable} (h : s.restore = .ok t) :
    ∃ s', t.toStored = .ok s' ∧ s'.SameOutside s ∧ s'.restore = .ok t ∧
      s'.normalize = .ok s' := by
  obtain ⟨s', hstored, hsame, hrestore⟩ := exists_toStored_of_restore h
  have hagain : s'.normalize = .ok s' := by
    rw [normalize, hrestore, except_bind_ok, hstored]
  exact ⟨s', hstored, hsame, hrestore, hagain⟩

/-- Events as other tools have left them: an entry that repeats the name of a field, a column with
both an expression and a metadata key, a flag in another case, types in other spellings and a
reserved key that means nothing. -/
def foreignEvents : StoredTable where
  fields := [⟨"id", ⟨.bigInt, false⟩⟩]
  primaryKeys := ["id"]
  options := .ofList [("bucket", "4"), ("schema.0.name", "id"), ("schema.1.name", "n"),
    ("schema.1.data-type", "varchar(2147483647)"), ("schema.1.expr", "id"),
    ("schema.1.metadata", "n"), ("schema.2.name", "ts"), ("schema.2.data-type", "timestamp"),
    ("schema.2.metadata", "ts"), ("schema.2.virtual", "True"), ("schema.owner", "ops")]
  comment := some "events"

def eventsSchema : TableSchema where
  columns := [.physical ⟨"id", ⟨.bigInt, false⟩⟩,
    .nonPhysical (.computed ⟨"n", ⟨.string, true⟩, "id"⟩),
    .nonPhysical (.metadata (.plain "ts" ⟨.timestamp 6, true⟩ true))]
  watermark := none
  primaryKey := ["id"]
  nodup_names := by decide
  primaryKey_physical := by decide
  rowtime_known := by decide

theorem restore_foreignEvents :
    foreignEvents.restore = .ok ⟨eventsSchema, .ofList [("bucket", "4")], some "events"⟩ :=
  restore_eq_ok_iff.mpr
    ⟨by decide +kernel, by decide +kernel, rfl, by decide +kernel, rfl⟩

theorem restore_normalizes_events :
    foreignEvents.restore = .ok ⟨eventsSchema, .ofList [("bucket", "4")], some "events"⟩ ∧
      ∃ s', foreignEvents.normalize = .ok s' ∧ s'.SameOutside foreignEvents ∧
        s'.normalize = .ok s' := by
  obtain ⟨s', hstored, hsame, _, hagain⟩ := restore_normalizes restore_foreignEvents
  refine ⟨restore_foreignEvents, s', ?_, hsame, hagain⟩
  rw [normalize, restore_foreignEvents, except_bind_ok, hstored]

end StoredTable

end FlatSchema
