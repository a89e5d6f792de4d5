import FlatSchema.Proofs.Relevance
import Mathlib.Data.Nat.Nth

namespace FlatSchema

/-- The names of columns are those of the physical ones and those of the others. -/
theorem columnNames_perm (columns : List Column) : (columnNames columns).Perm
    (physicalNames columns ++ (nonPhysicalColumns columns).map NonPhysicalColumn.name) := by
  induction columns with
  | nil => exact .nil
  | cons c rest ih =>
    cases c with
    | physical p => exact ih.cons p.name
    | nonPhysical c => exact (ih.cons c.name).trans List.perm_middle.symm

namespace StoredTable

/-- How many columns the table of a flat form has. -/
def width (s : StoredTable) : Nat :=
  s.fields.length + countNonPhysical s.options s.fieldNames

/-- An index that takes a field. -/
def Free (s : StoredTable) (i : Nat) : Prop := s.hasRecord i = false

instance (s : StoredTable) : DecidablePred s.Free :=
  fun i => inferInstanceAs (Decidable (s.hasRecord i = false))

/-- The names that the records bear. -/
def recordedNames (s : StoredTable) : List String := s.recordNames.entries.map Prod.snd

/-- Every record lies at an index that is read. -/
def Placed (s : StoredTable) : Prop :=
  ∀ key ∈ s.recordNames.keys, ∃ i < s.width, key = columnKey i .name

/-- Every record that lies at an index that is read can be decoded. -/
def Decodable (s : StoredTable) : Prop :=
  ∀ i < s.width, columnKey i .name ∈ s.recordNames.keys → ∃ c, decodeColumn s.options i = .ok c

instance (s : StoredTable) : Decidable s.Placed :=
  inferInstanceAs (Decidable (∀ key ∈ s.recordNames.keys, ∃ i < s.width, key = columnKey i .name))

instance (s : StoredTable) : Decidable s.Decodable :=
  decidable_of_iff (∀ i < s.width, columnKey i .name ∈ s.recordNames.keys →
      (decodeColumn s.options i).isOk) (by simp only [Decodable, except_isOk_iff])

variable {s : StoredTable}

theorem count_free_of_record {i : Nat} (h : s.hasRecord i) :
    Nat.count s.Free (i + 1) = Nat.count s.Free i := by
  apply Nat.count_succ_eq_count_iff.mpr
  simp [Free, h]

theorem count_free_of_free {i : Nat} (h : s.Free i) :
    Nat.count s.Free (i + 1) = Nat.count s.Free i + 1 :=
  Nat.count_succ_eq_succ_count_iff.mpr h

theorem count_free_add (n : Nat) :
    Nat.count s.Free n + (List.range n).countP s.hasRecord = n := by
  induction n with
  | zero => rfl
  | succ n ih =>
    rw [List.range_succ, List.countP_append, List.countP_singleton]
    by_cases h : s.hasRecord n
    · rw [count_free_of_record h, if_pos h]
      omega
    · rw [count_free_of_free (Bool.eq_false_iff.mpr h), if_neg h]
      omega

/-- There are fields enough for the indices without a record just if every record is placed. -/
theorem count_free_width_le_iff : Nat.count s.Free s.width ≤ s.fields.length ↔ s.Placed := by
  rw [Placed, ← countedKeys_eq, ← countP_hasRecord_eq_iff]
  have hsplit := count_free_add (s := s) s.width
  have hread := countP_hasRecord_le (s := s) s.width
  unfold width at hsplit hread ⊢
  omega

theorem columnsFrom_of_record {n i : Nat} {fields : List PhysicalColumn} {c : NonPhysicalColumn}
    (hrecord : s.hasRecord i) (hc : decodeColumn s.options i = .ok c) :
    s.columnsFrom (n + 1) i fields =
      (s.columnsFrom n (i + 1) fields).map (.nonPhysical c :: ·) := by
  rw [columnsFrom.eq_def]
  dsimp only
  rw [if_pos hrecord, hc, except_bind_ok]
  cases s.columnsFrom n (i + 1) fields <;> rfl

theorem columnsFrom_of_free {n i : Nat} (hfree : s.Free i) (field : PhysicalColumn)
    (fields : List PhysicalColumn) :
    s.columnsFrom (n + 1) i (field :: fields) =
      (s.columnsFrom n (i + 1) fields).map (.physical field :: ·) := by
  rw [columnsFrom, if_neg (Bool.eq_false_iff.mp hfree)]
  cases s.columnsFrom n (i + 1) fields <;> rfl

theorem columnsFrom_nil_of_free {n i : Nat} (hfree : s.Free i) :
    s.columnsFrom (n + 1) i [] = .error (.columnLayout i) := by
  rw [columnsFrom, if_neg (Bool.eq_false_iff.mp hfree)]

/-- The loop comes to its end while there are fields for the indices without a record. -/
theorem exists_columnsFrom {n i : Nat} {fields : List PhysicalColumn}
    (hdecode : ∀ j < i + n, s.hasRecord j → ∃ c, decodeColumn s.options j = .ok c)
    (henough : Nat.count s.Free (i + n) ≤ fields.length + Nat.count s.Free i) :
    ∃ columns, s.columnsFrom n i fields = .ok columns := by
  induction n generalizing i fields with
  | zero => exact ⟨[], rfl⟩
  | succ n ih =>
    have hnext : i + (n + 1) = i + 1 + n := by omega
    rw [hnext] at hdecode henough
    by_cases hrecord : s.hasRecord i
    · have hcount := count_free_of_record hrecord
      obtain ⟨c, hc⟩ := hdecode i (by omega) hrecord
      obtain ⟨rest, hrest⟩ := @ih (i + 1) fields hdecode (by omega)
      exact ⟨.nonPhysical c :: rest, by rw [columnsFrom_of_record hrecord hc, hrest]; rfl⟩
    · have hfree : s.Free i := Bool.eq_false_iff.mpr hrecord
      have hcount := count_free_of_free hfree
      cases fields with
      | nil =>
        have hmono := Nat.count_monotone s.Free (Nat.le_add_right (i + 1) n)
        rw [List.length_nil] at henough
        omega
      | cons field fields =>
        rw [List.length_cons] at henough
        obtain ⟨rest, hrest⟩ := @ih (i + 1) fields hdecode (by omega)
        exact ⟨.physical field :: rest, by rw [columnsFrom_of_free hfree, hrest]; rfl⟩

/-- Where the fields do not suffice, the loop stops at the first index that is left without one.
A step lowers the fields that are left and raises the count of free indices at once, so that the
index at which it stops stays the same. -/
theorem columnsFrom_eq_error {n i : Nat} {fields : List PhysicalColumn}
    (hdecode : ∀ j < i + n, s.hasRecord j → ∃ c, decodeColumn s.options j = .ok c)
    (hshort : fields.length + Nat.count s.Free i < Nat.count s.Free (i + n)) :
    s.columnsFrom n i fields =
      .error (.columnLayout (Nat.nth s.Free (fields.length + Nat.count s.Free i))) := by
  induction n generalizing i fields with
  | zero =>
    rw [Nat.add_zero] at hshort
    omega
  | succ n ih =>
    have hnext : i + (n + 1) = i + 1 + n := by omega
    rw [hnext] at hdecode hshort
    by_cases hrecord : s.hasRecord i
    · obtain ⟨c, hc⟩ := hdecode i (by omega) hrecord
      rw [← count_free_of_record hrecord] at hshort ⊢
      rw [columnsFrom_of_record hrecord hc, ih hdecode hshort]
      rfl
    · have hfree : s.Free i := Bool.eq_false_iff.mpr hrecord
      cases fields with
      | nil =>
        rw [columnsFrom_nil_of_free hfree, List.length_nil, Nat.zero_add, Nat.nth_count hfree]
      | cons field fields =>
        have hsame : (field :: fields).length + Nat.count s.Free i =
            fields.length + Nat.count s.Free (i + 1) := by
          rw [List.length_cons, count_free_of_free hfree]
          omega
        rw [hsame] at hshort ⊢
        rw [columnsFrom_of_free hfree, ih hdecode hshort]
        rfl

theorem decodable_iff : s.Decodable ↔
    ∀ i < 0 + s.width, s.hasRecord i → ∃ c, decodeColumn s.options i = .ok c := by
  simp only [Decodable, hasRecord_iff, countedKeys_eq, Nat.zero_add]

/-- If every record that is read can be decoded, the columns are restored just if all records are
read. -/
theorem exists_columns_iff (hdecode : s.Decodable) :
    (∃ columns, s.columns = .ok columns) ↔ s.Placed := by
  constructor
  · intro h
    obtain ⟨columns, hcolumns⟩ := h
    intro key hkey
    rw [width, ← length_columns hcolumns]
    exact (columns_eq_ok_iff.mp hcolumns).2.2 key hkey
  · intro hplaced
    apply exists_columnsFrom (decodable_iff.mp hdecode)
    rw [Nat.count_zero, Nat.add_zero, Nat.zero_add]
    exact count_free_width_le_iff.mpr hplaced

/-- If some record is not read, the fields run out: the loop stops at the index without a record
that has as many of them before it as there are fields. -/
theorem columns_eq_error (hdecode : s.Decodable) (hplaced : ¬s.Placed) :
    s.columns = .error (.columnLayout (Nat.nth s.Free s.fields.length)) := by
  have hshort : s.fields.length + Nat.count s.Free 0 < Nat.count s.Free (0 + s.width) := by
    rw [Nat.count_zero, Nat.add_zero, Nat.zero_add]
    exact Nat.lt_of_not_le (mt count_free_width_le_iff.mp hplaced)
  have herror := columnsFrom_eq_error (decodable_iff.mp hdecode) hshort
  rwa [Nat.count_zero, Nat.add_zero] at herror

theorem decodable_of_columns {columns : List Column} (h : s.columns = .ok columns) :
    s.Decodable := by
  intro i _ hkey
  obtain ⟨name, hname, hshape, hother⟩ := mem_countedKeys.mp hkey
  obtain ⟨j, _, hj, c, hc, _⟩ := column_of_record h hname hshape hother
  obtain ⟨rfl, _⟩ := columnKey_inj.mp hj
  exact ⟨c, hc⟩

/-- The non-physical columns of a layout bear the names that are read at their indices. -/
theorem Layout.names {i : Nat} {columns : List Column} (h : s.Layout i columns) :
    (nonPhysicalColumns columns).map NonPhysicalColumn.name =
      ((List.range' i columns.length).filter s.hasRecord).map
        (fun j => (s.options.get? (columnKey j .name)).getD "") := by
  induction h with
  | nil => rfl
  | record here decoded _ ih =>
    have hname := (decodeColumn_eq_ok_iff.mp decoded).name
    simp [List.range'_succ, here, ih, hname]
  | field free _ ih => simp [List.range'_succ, free, ih]

/-- The names of records can be looked up at their keys. -/
theorem recordedNames_eq :
    s.recordedNames = s.countedKeys.map (fun key => (s.options.get? key).getD "") := by
  rw [recordedNames, countedKeys_eq, SortedMap.keys, List.map_map]
  apply List.map_congr_left
  intro e he
  have hget : s.options.get? e.1 = some e.2 :=
    SortedMap.get?_eq_some_iff.mpr (List.mem_of_mem_filter he)
  simp [hget]

theorem keysBelow_perm {n : Nat} (h : ∀ key ∈ s.countedKeys, ∃ i < n, key = columnKey i .name) :
    (s.keysBelow n).Perm s.countedKeys := by
  apply (keysBelow_subperm n).perm_of_length_le
  rw [length_countedKeys, length_keysBelow, (countP_hasRecord_eq_iff n).mpr h]

theorem physicalNames_of_columns {columns : List Column} (h : s.columns = .ok columns) :
    physicalNames columns = s.fieldNames := by
  rw [physicalNames, (columns_eq_ok_iff.mp h).2.1, fieldNames]

/-- The restored columns are named by the fields and the records. -/
theorem columnNames_perm_of_columns {columns : List Column} (h : s.columns = .ok columns) :
    (columnNames columns).Perm (s.fieldNames ++ s.recordedNames) := by
  obtain ⟨hlayout, _, hplaced⟩ := columns_eq_ok_iff.mp h
  have hnames : ((nonPhysicalColumns columns).map NonPhysicalColumn.name).Perm
      s.recordedNames := by
    have hperm := (keysBelow_perm hplaced).map (fun key => (s.options.get? key).getD "")
    rw [hlayout.names, recordedNames_eq, ← List.range_eq_range']
    rwa [keysBelow, List.map_map] at hperm
  rw [← physicalNames_of_columns h]
  exact (columnNames_perm columns).trans (hnames.append_left _)

theorem mem_columnNames_iff {columns : List Column} (h : s.columns = .ok columns)
    {name : String} :
    name ∈ columnNames columns ↔ name ∈ s.fieldNames ∨ name ∈ s.recordedNames := by
  rw [(columnNames_perm_of_columns h).mem_iff, List.mem_append]

theorem not_mem_fieldNames_of_recordedNames {name : String} (h : name ∈ s.recordedNames) :
    name ∉ s.fieldNames := by
  obtain ⟨e, he, rfl⟩ := List.mem_map.mp h
  have hrecord := (List.mem_filter.mp he).2
  simp [isRecordName] at hrecord
  exact hrecord.2

/-- Names are distinct among the restored columns just if they are among the fields and among the
records, which share none. -/
theorem nodup_columnNames_iff {columns : List Column} (h : s.columns = .ok columns) :
    (columnNames columns).Nodup ↔ s.fieldNames.Nodup ∧ s.recordedNames.Nodup := by
  rw [(columnNames_perm_of_columns h).nodup_iff, List.nodup_append']
  constructor
  · intro hnodup
    exact ⟨hnodup.1, hnodup.2.1⟩
  · intro hnodup
    refine ⟨hnodup.1, hnodup.2, ?_⟩
    intro name hfield hrecord
    exact not_mem_fieldNames_of_recordedNames hrecord hfield

theorem hasWatermark_of_decode {options : Options} {w : Watermark}
    (h : decodeWatermark options = .ok w) : options.hasWatermark := by
  obtain ⟨hrowtime, _⟩ := decodeWatermark_eq_ok_iff.mp h
  apply Options.hasWatermark_iff.mpr
  exact ⟨_, _, hrowtime, isWatermarkKey_watermarkKey .rowtime⟩

theorem watermark_of_decode {w : Watermark} (h : decodeWatermark s.options = .ok w) :
    s.watermark = .ok (some w) := by
  rw [StoredTable.watermark, if_pos (hasWatermark_of_decode h), h]
  rfl

/-- A watermark is restored, or its absence, unless some of its entries are missing. -/
theorem exists_watermark_iff : (∃ w, s.watermark = .ok w) ↔
    (∀ key ∈ s.options.keys, isWatermarkKey key = false) ∨
      ∃ w, decodeWatermark s.options = .ok w := by
  constructor
  · intro h
    obtain ⟨w, hw⟩ := h
    obtain ⟨hpresent, hdecoded⟩ := watermark_eq_ok_iff.mp hw
    cases w with
    | none =>
      left
      simpa [Options.hasWatermark] using hpresent
    | some w => exact .inr ⟨w, hdecoded w rfl⟩
  · rintro (hnone | ⟨w, hw⟩)
    · have habsent : s.options.hasWatermark = false := by
        simpa [Options.hasWatermark] using hnone
      exact ⟨none, watermark_eq_ok_iff.mpr (by simp [habsent])⟩
    · exact ⟨some w, watermark_of_decode hw⟩

/-- A flat form is restored if its columns and its watermark are and go together. -/
theorem exists_restore_iff : (∃ t, s.restore = .ok t) ↔
    ∃ columns watermark, s.columns = .ok columns ∧ s.watermark = .ok watermark ∧
      (columnNames columns).Nodup ∧ (∀ key ∈ s.primaryKeys, key ∈ physicalNames columns) ∧
      ∀ w ∈ watermark, w.rowtime ∈ columnNames columns := by
  constructor
  · intro h
    obtain ⟨t, ht⟩ := h
    obtain ⟨hcolumns, hwatermark, hkeys, _⟩ := restore_eq_ok_iff.mp ht
    refine ⟨_, _, hcolumns, hwatermark, t.schema.nodup_names, ?_, t.schema.rowtime_known⟩
    rw [← hkeys]
    exact t.schema.primaryKey_physical
  · intro h
    obtain ⟨columns, watermark, hcolumns, hwatermark, hnames, hkeys, hrowtime⟩ := h
    let schema : TableSchema := ⟨columns, watermark, s.primaryKeys, hnames, hkeys, hrowtime⟩
    exact ⟨⟨schema, s.options.user, s.comment⟩,
      restore_eq_ok_iff.mpr ⟨hcolumns, hwatermark, rfl, rfl, rfl⟩⟩

/-- What a flat form needs to stand for a table, told by its fields and records. -/
structure Acceptable (s : StoredTable) : Prop where
  placed : s.Placed
  decodable : s.Decodable
  watermark : (∀ key ∈ s.options.keys, isWatermarkKey key = false) ∨
    ∃ w, decodeWatermark s.options = .ok w
  fieldNames : s.fieldNames.Nodup
  recordedNames : s.recordedNames.Nodup
  primaryKeys : ∀ key ∈ s.primaryKeys, key ∈ s.fieldNames
  rowtime : ∀ w, decodeWatermark s.options = .ok w →
    w.rowtime ∈ s.fieldNames ∨ w.rowtime ∈ s.recordedNames

theorem acceptable_of_restore {t : CatalogTable} (h : s.restore = .ok t) : s.Acceptable := by
  obtain ⟨columns, watermark, hcolumns, hwatermark, hnames, hkeys, hrowtime⟩ :=
    exists_restore_iff.mp ⟨t, h⟩
  obtain ⟨hfields, hrecords⟩ := (nodup_columnNames_iff hcolumns).mp hnames
  have hdecodable := decodable_of_columns hcolumns
  refine ⟨(exists_columns_iff hdecodable).mp ⟨columns, hcolumns⟩, hdecodable,
    exists_watermark_iff.mp ⟨watermark, hwatermark⟩, hfields, hrecords, ?_, ?_⟩
  · rwa [physicalNames_of_columns hcolumns] at hkeys
  · intro w hw
    have hsome := watermark_of_decode hw
    rw [hwatermark] at hsome
    cases hsome
    exact (mem_columnNames_iff hcolumns).mp (hrowtime w rfl)

theorem Acceptable.exists_restore (h : s.Acceptable) : ∃ t, s.restore = .ok t := by
  obtain ⟨columns, hcolumns⟩ := (exists_columns_iff h.decodable).mpr h.placed
  obtain ⟨watermark, hwatermark⟩ := exists_watermark_iff.mpr h.watermark
  apply exists_restore_iff.mpr
  refine ⟨columns, watermark, hcolumns, hwatermark, ?_, ?_, ?_⟩
  · exact (nodup_columnNames_iff hcolumns).mpr ⟨h.fieldNames, h.recordedNames⟩
  · rw [physicalNames_of_columns hcolumns]
    exact h.primaryKeys
  · intro w hw
    have hdecoded := (watermark_eq_ok_iff.mp hwatermark).2 w hw
    exact (mem_columnNames_iff hcolumns).mpr (h.rowtime w hdecoded)

/-- A flat form is restored just if it is acceptable. If nothing is wrong with the records that are
read, but some record is not read, the cause names the first index without a record that has no
field left for it; with indices counted from 0 it has as many free ones before it as there are
fields. -/
theorem restore_accepts (s : StoredTable) :
    ((∃ t, s.restore = .ok t) ↔ s.Acceptable) ∧
      (¬s.Placed → s.Decodable →
        s.restore = .error (.columnLayout (Nat.nth s.Free s.fields.length))) := by
  constructor
  · constructor
    · intro h
      obtain ⟨t, ht⟩ := h
      exact acceptable_of_restore ht
    · intro h
      exact h.exists_restore
  · intro hplaced hdecodable
    rw [restore, columns_eq_error hdecodable hplaced]
    rfl

/-- Two fields and two records, of which one has a key that no column reads. -/
def strandedTable : StoredTable where
  fields := [⟨"id", ⟨.bigInt, false⟩⟩, ⟨"note", ⟨.string, true⟩⟩]
  primaryKeys := ["id"]
  options := .ofList [("schema.1.name", "n"), ("schema.1.data-type", "INT"),
    ("schema.1.expr", "id"), ("schema.02.name", "m")]
  comment := none

theorem restore_accepts_stranded :
    plainTable.Acceptable ∧ (∃ t, plainTable.restore = .ok t) ∧
      ¬strandedTable.Placed ∧ strandedTable.Decodable ∧
      strandedTable.restore = .error (.columnLayout 3) := by
  have hplain : plainTable.Acceptable := by
    refine ⟨by decide +kernel, by decide +kernel, .inl (by decide +kernel), by decide,
      by decide +kernel, by decide, ?_⟩
    intro w hw
    have hnone : plainTable.options.hasWatermark = false := by decide +kernel
    rw [hasWatermark_of_decode hw] at hnone
    cases hnone
  have hplaced : ¬strandedTable.Placed := by decide +kernel
  have hdecodable : strandedTable.Decodable := by decide +kernel
  have hindex : Nat.nth strandedTable.Free 2 = 3 := by
    have hfree : strandedTable.Free 3 := by decide +kernel
    have hcount : Nat.count strandedTable.Free 3 = 2 := by decide +kernel
    rw [← hcount, Nat.nth_count hfree]
  have herror := (restore_accepts strandedTable).2 hplaced hdecodable
  refine ⟨hplain, (restore_accepts plainTable).1.mpr hplain, hplaced, hdecodable, ?_⟩
  rw [herror]
  exact congrArg (fun i => Except.error (SchemaError.columnLayout i)) hindex

end StoredTable

end FlatSchema
