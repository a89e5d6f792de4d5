import FlatSchema.Proofs.Form.Table
import FlatSchema.Proofs.Normalization

namespace FlatSchema

theorem TableSchema.Canonical.flatCanonical {s : TableSchema} (h : s.Canonical) :
    s.FlatCanonical where
  columns c hc := by
    obtain ⟨i, hi⟩ := mem_nonPhysicalColumns.mp hc
    exact h.columns (.nonPhysical c) (List.mem_of_getElem? hi)
  watermark := h.watermark

/-- The types of physical columns are left, and all others are in the options. -/
theorem StoredTable.canonical_of_toStored {t : CatalogTable} {s : StoredTable} (ht : t.Canonical)
    (h : t.toStored = .ok s) : s.Canonical := by
  obtain ⟨options, -, h⟩ := except_bind_eq_ok_iff.mp h
  cases h
  intro c hc
  obtain ⟨i, hi⟩ := mem_physicalColumns.mp hc
  exact ht.columns _ (List.mem_of_getElem? hi)

/-- The fields become columns, and other columns are decoded from texts of types. -/
theorem StoredTable.canonical_of_restore {s : StoredTable} {t : CatalogTable} (hs : s.Canonical)
    (h : s.restore = .ok t) : t.Canonical := by
  have hflat := flatCanonical_of_restore h
  have hfields := (columns_eq_ok_iff.mp (restore_eq_ok_iff.mp h).1).2.1
  refine ⟨fun c hc => ?_, hflat.watermark⟩
  obtain ⟨i, hi⟩ := List.mem_iff_getElem?.mp hc
  cases c with
  | physical p => exact hs p (hfields ▸ mem_physicalColumns.mpr ⟨i, hi⟩)
  | nonPhysical c => exact hflat.columns c (mem_nonPhysicalColumns.mpr ⟨i, hi⟩)

/-- A canonical table has a flat form, which is canonical and stands for the table less the user
options that the schema's keys are reserved from. -/
theorem CatalogTable.Canonical.flattens {t : CatalogTable} (h : t.Canonical) :
    ∃ s, t.toStored = .ok s ∧ s.Canonical ∧
      s.restore = .ok { t with options := t.options.user } := by
  obtain ⟨s, hstored, hrestore⟩ := exists_toStored (TableSchema.Canonical.flatCanonical h)
  exact ⟨s, hstored, StoredTable.canonical_of_toStored h hstored, hrestore⟩

end FlatSchema
