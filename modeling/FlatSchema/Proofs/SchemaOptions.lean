import FlatSchema.Proofs.Records
import FlatSchema.Schema

namespace FlatSchema

theorem firstRepeat_of_nodup {seen names : List String} (hn : names.Nodup)
    (hs : ∀ name ∈ names, name ∉ seen) : firstRepeat seen names = none := by
  induction names generalizing seen with
  | nil => rfl
  | cons name rest ih =>
    obtain ⟨hname, hrest⟩ := List.nodup_cons.mp hn
    rw [firstRepeat, if_neg (hs name List.mem_cons_self)]
    apply ih hrest
    intro other ho hm
    rcases List.mem_cons.mp hm with rfl | hm
    · exact hname ho
    · exact hs other (List.mem_cons_of_mem _ ho) hm

namespace SchemaDraft

theorem strayKey_draft (s : TableSchema) : s.draft.strayKey = none := by
  refine List.find?_eq_none.mpr (fun key hm => ?_)
  simpa [TableSchema.draft] using s.primaryKey_physical key hm

theorem strayRowtime_draft (s : TableSchema) : s.draft.strayRowtime = none := by
  rw [strayRowtime, Option.filter_eq_none_iff]
  intro name hm
  obtain ⟨w, hw, rfl⟩ := Option.map_eq_some_iff.mp hm
  simpa [TableSchema.draft] using s.rowtime_known w hw

theorem build_draft (s : TableSchema) : s.draft.build = .ok s := by
  have hn : firstRepeat [] (columnNames s.draft.columns) = none :=
    firstRepeat_of_nodup s.nodup_names (by simp)
  unfold build
  split
  · rename_i he
    rw [hn] at he
    cases he
  · split
    · rename_i he
      rw [strayKey_draft] at he
      cases he
    · split
      · rename_i he
        rw [strayRowtime_draft] at he
        cases he
      · rfl

theorem draft_of_build {d : SchemaDraft} {s : TableSchema} (h : d.build = .ok s) :
    s.draft = d := by
  unfold build at h
  split at h
  · cases h
  · split at h
    · cases h
    · split at h <;> cases h
      rfl

/-- The schema that is built has the parts of the draft, and the parts of a schema build it. -/
theorem build_eq_ok_iff {d : SchemaDraft} {s : TableSchema} : d.build = .ok s ↔ s.draft = d := by
  constructor
  · exact draft_of_build
  · intro h
    rw [← h]
    exact build_draft s

end SchemaDraft

theorem mem_nonPhysicalColumns {columns : List Column} {c : NonPhysicalColumn} :
    c ∈ nonPhysicalColumns columns ↔ ∃ i : Nat, columns[i]? = some (Column.nonPhysical c) := by
  rw [← List.mem_iff_getElem?, nonPhysicalColumns, List.mem_filterMap]
  constructor
  · intro h
    obtain ⟨column, hm, hc⟩ := h
    cases column <;> cases hc
    exact hm
  · intro h
    exact ⟨_, h, rfl⟩

theorem mem_physicalColumns {columns : List Column} {p : PhysicalColumn} :
    p ∈ physicalColumns columns ↔ ∃ i : Nat, columns[i]? = some (Column.physical p) := by
  rw [← List.mem_iff_getElem?, physicalColumns, List.mem_filterMap]
  constructor
  · intro h
    obtain ⟨column, hm, hc⟩ := h
    cases column <;> cases hc
    exact hm
  · intro h
    exact ⟨_, h, rfl⟩

/-- Options that hold of a schema what its physical columns do not, and nothing else under the
reserved keys. -/
structure Options.Describes (options : Options) (s : TableSchema) : Prop where
  column : ∀ i f, options.get? (columnKey i f) =
    (s.columns[i]?.bind Column.nonPhysical?).bind (·.value? f)
  watermark : ∀ f, options.get? (watermarkKey f) = s.watermark.map (·.value f)
  only : ∀ key value, options.get? key = some value → isReserved key →
    (∃ i f, key = columnKey i f) ∨ ∃ f, key = watermarkKey f

namespace TableSchema

variable (s : TableSchema)

theorem index_eq_of_name_eq {s : TableSchema} {i j : Nat} {c d : Column}
    (hi : s.columns[i]? = some c) (hj : s.columns[j]? = some d) (h : c.name = d.name) : i = j := by
  have hlen : i < (columnNames s.columns).length := by
    simpa [columnNames] using (List.getElem?_eq_some_iff.mp hi).1
  apply (List.getElem?_inj hlen s.nodup_names).mp
  simp [columnNames, hi, hj, h]

/-- Each column is found at its place. -/
theorem indexOf?_name {s : TableSchema} {i : Nat} {c : Column} (h : s.columns[i]? = some c) :
    s.indexOf? c.name = some i := by
  obtain ⟨hi, hc⟩ := List.getElem?_eq_some_iff.mp h
  rw [indexOf?, List.findIdx?_eq_some_iff_getElem]
  refine ⟨hi, by simp [hc], fun j hj => ?_⟩
  simp only [beq_iff_eq]
  intro he
  have := index_eq_of_name_eq (List.getElem?_eq_getElem (by omega)) h he
  omega

/-- The place of a non-physical column among all columns. -/
def place (c : NonPhysicalColumn) : Nat := (s.indexOf? c.name).getD 0

theorem place_eq {s : TableSchema} {i : Nat} {c : NonPhysicalColumn}
    (h : s.columns[i]? = some (.nonPhysical c)) : s.place c = i := by
  rw [place, show c.name = (Column.nonPhysical c).name from rfl, indexOf?_name h]
  rfl

theorem nodup_nonPhysicalColumns : (nonPhysicalColumns s.columns).Nodup := by
  refine (List.Nodup.of_map _ s.nodup_names).filterMap ?_
  intro c d np hc hd
  cases c <;> cases hc
  cases d <;> cases hd
  rfl

theorem nodup_places : ((nonPhysicalColumns s.columns).map s.place).Nodup := by
  refine List.Nodup.map_on ?_ s.nodup_nonPhysicalColumns
  intro c hc d hd h
  obtain ⟨i, hi⟩ := mem_nonPhysicalColumns.mp hc
  obtain ⟨j, hj⟩ := mem_nonPhysicalColumns.mp hd
  rw [place_eq hi, place_eq hj] at h
  subst h
  rw [hi] at hj
  cases hj
  rfl

/-- The records of the columns alone. -/
def columnRecords : Options :=
  .ofList (placedEntries s.place (nonPhysicalColumns s.columns))

theorem encodeColumns_nonPhysical :
    encodeColumns s.indexOf? (nonPhysicalColumns s.columns) = .ok s.columnRecords := by
  apply encodeColumns_eq_ok
  intro c hc
  obtain ⟨i, hi⟩ := mem_nonPhysicalColumns.mp hc
  rw [place_eq hi]
  exact indexOf?_name hi

theorem get?_columnRecords (i : Nat) (f : ColumnField) :
    s.columnRecords.get? (columnKey i f) =
      (s.columns[i]?.bind Column.nonPhysical?).bind (·.value? f) := by
  cases hc : s.columns[i]?.bind Column.nonPhysical? with
  | none =>
    apply get?_placed_of_ne
    intro c hm hp
    obtain ⟨j, hj⟩ := mem_nonPhysicalColumns.mp hm
    rw [place_eq hj] at hp
    subst hp
    simp [hj, Column.nonPhysical?] at hc
  | some c =>
    have hi : s.columns[i]? = some (.nonPhysical c) := by
      obtain ⟨column, hi, hc⟩ := Option.bind_eq_some_iff.mp hc
      cases column <;> cases hc
      exact hi
    have hg := get?_placed s.nodup_places (mem_nonPhysicalColumns.mpr ⟨i, hi⟩) f
    rw [place_eq hi] at hg
    exact hg

/-- The options of a schema describe it and hold reserved keys only. -/
theorem options_eq_ok : ∃ options, s.options = .ok options ∧ options.Describes s ∧
    ∀ key value, options.get? key = some value → isReserved key := by
  unfold TableSchema.options
  rw [encodeColumns_nonPhysical, except_bind_ok]
  have hreserved : ∀ key, ((∃ i f, key = columnKey i f) ∨ ∃ f, key = watermarkKey f) →
      isReserved key := by
    rintro key (⟨i, f, rfl⟩ | ⟨f, rfl⟩)
    · exact isReserved_columnKey i f
    · exact isReserved_watermarkKey f
  cases hw : s.watermark with
  | none =>
    have honly : ∀ key value, s.columnRecords.get? key = some value →
        (∃ i f, key = columnKey i f) ∨ ∃ f, key = watermarkKey f :=
      fun key value h => .inl (columnKey_of_placed h)
    exact ⟨_, rfl, ⟨s.get?_columnRecords, by simp [hw, columnRecords, get?_placed_watermarkKey],
      fun key value h _ => honly key value h⟩,
      fun key value h => hreserved key (honly key value h)⟩
  | some w =>
    have honly : ∀ key value,
        (s.columnRecords.union (encodeWatermark w)).get? key = some value →
        (∃ i f, key = columnKey i f) ∨ ∃ f, key = watermarkKey f := by
      intro key value h
      rw [SortedMap.get?_union, Option.or_eq_some_iff] at h
      rcases h with h | ⟨_, h⟩
      · exact .inr (watermarkKey_of_encodeWatermark h)
      · exact .inl (columnKey_of_placed h)
    refine ⟨_, rfl, ⟨?_, ?_, fun key value h _ => honly key value h⟩,
      fun key value h => hreserved key (honly key value h)⟩
    · intro i f
      rw [SortedMap.get?_union, get?_encodeWatermark_columnKey, Option.none_or]
      exact s.get?_columnRecords i f
    · intro f
      rw [SortedMap.get?_union, get?_encodeWatermark, hw]
      rfl

end TableSchema

end FlatSchema
