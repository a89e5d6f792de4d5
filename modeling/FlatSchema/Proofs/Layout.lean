import FlatSchema.Proofs.Records
import FlatSchema.Table
import Mathlib.Data.List.Perm.Subperm

namespace FlatSchema

@[simp] theorem physicalColumns_physical (p : PhysicalColumn) (rest : List Column) :
    physicalColumns (.physical p :: rest) = p :: physicalColumns rest := rfl

@[simp] theorem physicalColumns_nonPhysical (c : NonPhysicalColumn) (rest : List Column) :
    physicalColumns (.nonPhysical c :: rest) = physicalColumns rest := rfl

@[simp] theorem nonPhysicalColumns_physical (p : PhysicalColumn) (rest : List Column) :
    nonPhysicalColumns (.physical p :: rest) = nonPhysicalColumns rest := rfl

@[simp] theorem nonPhysicalColumns_nonPhysical (c : NonPhysicalColumn) (rest : List Column) :
    nonPhysicalColumns (.nonPhysical c :: rest) = c :: nonPhysicalColumns rest := rfl

theorem length_eq_physical_add_nonPhysical (columns : List Column) :
    columns.length = (physicalColumns columns).length + (nonPhysicalColumns columns).length := by
  induction columns with
  | nil => rfl
  | cons c rest ih => cases c <;> simp [ih] <;> omega

namespace StoredTable

/-- Columns that can stand one after another from an index on: an index with a record has the
column of its record, every other index has a field. -/
inductive Layout (s : StoredTable) : Nat → List Column → Prop where
  | nil {i : Nat} : Layout s i []
  | record {i : Nat} {c : NonPhysicalColumn} {rest : List Column} (here : s.hasRecord i)
      (decoded : decodeColumn s.options i = .ok c) (tail : Layout s (i + 1) rest) :
      Layout s i (.nonPhysical c :: rest)
  | field {i : Nat} {p : PhysicalColumn} {rest : List Column} (free : s.hasRecord i = false)
      (tail : Layout s (i + 1) rest) : Layout s i (.physical p :: rest)

variable {s : StoredTable}

/-- The loop gives the columns of a layout that takes its fields in order. -/
theorem columnsFrom_eq_ok_iff {n i : Nat} {fields : List PhysicalColumn} {columns : List Column} :
    s.columnsFrom n i fields = .ok columns ↔
      s.Layout i columns ∧ columns.length = n ∧ physicalColumns columns <+: fields := by
  -- At each index the loop makes the choice that a layout allows: its record or the next field.
  induction n generalizing i fields columns with
  | zero =>
    rw [columnsFrom, Except.ok.injEq]
    constructor
    · intro h
      obtain rfl := h
      exact ⟨.nil, rfl, List.nil_prefix⟩
    · intro h
      obtain ⟨_, hl, _⟩ := h
      exact (List.length_eq_zero_iff.mp hl).symm
  | succ n ih =>
    unfold columnsFrom
    split
    · rename_i hr
      simp only [except_bind_eq_ok_iff, ih, Except.ok.injEq]
      constructor
      · intro h
        obtain ⟨c, hd, rest, ⟨ht, hl, hp⟩, rfl⟩ := h
        exact ⟨.record hr hd ht, by simp [hl], hp⟩
      · intro h
        obtain ⟨hlay, hl, hp⟩ := h
        cases hlay with
        | nil => cases hl
        | field hf => simp [hr] at hf
        | record _ hd ht => exact ⟨_, hd, _, ⟨ht, by simpa using hl, hp⟩, rfl⟩
    · rename_i hr
      cases fields with
      | nil =>
        refine ⟨fun h => (by cases h), ?_⟩
        intro h
        obtain ⟨hlay, hl, hp⟩ := h
        cases hlay with
        | nil => cases hl
        | record hh => exact absurd hh hr
        | field => simp at hp
      | cons f fields =>
        simp only [except_bind_eq_ok_iff, ih, Except.ok.injEq]
        constructor
        · intro h
          obtain ⟨rest, ⟨ht, hl, hp⟩, rfl⟩ := h
          exact ⟨.field (by simpa using hr) ht, by simp [hl],
            List.cons_prefix_cons.mpr ⟨rfl, hp⟩⟩
        · intro h
          obtain ⟨hlay, hl, hp⟩ := h
          cases hlay with
          | nil => cases hl
          | record hh => exact absurd hh hr
          | field _ ht =>
            obtain ⟨rfl, hrest⟩ := List.cons_prefix_cons.mp hp
            exact ⟨_, ⟨ht, by simpa using hl, hrest⟩, rfl⟩

/-- What each place of a layout has to show for its column. -/
def Fits (s : StoredTable) (i : Nat) : Column → Prop
  | .nonPhysical c => s.hasRecord i ∧ decodeColumn s.options i = .ok c
  | .physical _ => s.hasRecord i = false

theorem Layout.of_fits {i : Nat} {columns : List Column}
    (h : ∀ k c, columns[k]? = some c → s.Fits (i + k) c) : s.Layout i columns := by
  induction columns generalizing i with
  | nil => exact .nil
  | cons c rest ih =>
    have hc := h 0 c rfl
    have hrest : s.Layout (i + 1) rest := ih (fun k d hd => by
      rw [Nat.succ_add_eq_add_succ]
      exact h (k + 1) d hd)
    cases c with
    | nonPhysical c => exact .record hc.1 hc.2 hrest
    | physical p => exact .field hc hrest

theorem Layout.fits {i k : Nat} {columns : List Column} {c : Column} (h : s.Layout i columns)
    (hk : columns[k]? = some c) : s.Fits (i + k) c := by
  induction h generalizing k with
  | nil => simp at hk
  | record here decoded _ ih =>
    cases k with
    | zero =>
      cases hk
      exact ⟨here, decoded⟩
    | succ k => rw [← Nat.succ_add_eq_add_succ]; exact ih (by simpa using hk)
  | field free _ ih =>
    cases k with
    | zero =>
      cases hk
      exact free
    | succ k => rw [← Nat.succ_add_eq_add_succ]; exact ih (by simpa using hk)

theorem Layout.length_nonPhysical {i : Nat} {columns : List Column} (h : s.Layout i columns) :
    (nonPhysicalColumns columns).length = (List.range' i columns.length).countP s.hasRecord := by
  induction h with
  | nil => rfl
  | record here _ _ ih => simpa [List.range'_succ, here] using ih
  | field free _ ih => simpa [List.range'_succ, free] using ih

/-- The keys of the entries that are counted as records, whether they can be read or not. -/
def countedKeys (s : StoredTable) : List String :=
  (s.options.entries.filter (fun e => isRecordName s.fieldNames e.1 e.2)).map Prod.fst

/-- The keys of the names that are read below an index. -/
def keysBelow (s : StoredTable) (n : Nat) : List String :=
  ((List.range n).filter s.hasRecord).map (columnKey · .name)

theorem mem_countedKeys {key : String} : key ∈ s.countedKeys ↔
    ∃ name, s.options.get? key = some name ∧ isColumnNameKey key ∧ name ∉ s.fieldNames := by
  simp [countedKeys, SortedMap.get?_eq_some_iff, isRecordName]

theorem hasRecord_iff {i : Nat} : s.hasRecord i ↔ columnKey i .name ∈ s.countedKeys := by
  simp [hasRecord, mem_countedKeys, isColumnNameKey_columnKey, Option.any_eq_true]

theorem length_countedKeys :
    s.countedKeys.length = countNonPhysical s.options s.fieldNames := by
  rw [countedKeys, List.length_map, countNonPhysical, List.countP_eq_length_filter]

theorem nodup_countedKeys : s.countedKeys.Nodup :=
  s.options.nodup_keys.sublist (List.filter_sublist.map Prod.fst)

theorem length_keysBelow (n : Nat) :
    (s.keysBelow n).length = (List.range n).countP s.hasRecord := by
  rw [keysBelow, List.length_map, List.countP_eq_length_filter]

theorem nodup_keysBelow (n : Nat) : (s.keysBelow n).Nodup :=
  (List.nodup_range.filter _).map (fun _ _ h => (columnKey_inj.mp h).1)

theorem keysBelow_subperm (n : Nat) : (s.keysBelow n).Subperm s.countedKeys := by
  refine List.subperm_of_subset (nodup_keysBelow n) ?_
  intro key hk
  obtain ⟨i, hi, rfl⟩ := List.mem_map.mp hk
  exact hasRecord_iff.mp (List.mem_filter.mp hi).2

/-- No more names are read than are counted. -/
theorem countP_hasRecord_le (n : Nat) :
    (List.range n).countP s.hasRecord ≤ countNonPhysical s.options s.fieldNames := by
  rw [← length_keysBelow, ← length_countedKeys]
  exact (keysBelow_subperm n).length_le

/-- As many names are read as are counted just if each counted one stands where it is read. -/
theorem countP_hasRecord_eq_iff (n : Nat) :
    (List.range n).countP s.hasRecord = countNonPhysical s.options s.fieldNames ↔
      ∀ key ∈ s.countedKeys, ∃ i < n, key = columnKey i .name := by
  rw [← length_keysBelow, ← length_countedKeys]
  constructor
  · intro he key hk
    have hp := (keysBelow_subperm n).perm_of_length_le (Nat.le_of_eq he.symm)
    obtain ⟨i, hi, rfl⟩ := List.mem_map.mp (hp.mem_iff.mpr hk)
    exact ⟨i, List.mem_range.mp (List.mem_filter.mp hi).1, rfl⟩
  · intro h
    have hsub : s.countedKeys ⊆ s.keysBelow n := by
      intro key hk
      obtain ⟨i, hi, rfl⟩ := h key hk
      exact List.mem_map.mpr
        ⟨i, List.mem_filter.mpr ⟨List.mem_range.mpr hi, hasRecord_iff.mpr hk⟩, rfl⟩
    have hback := List.subperm_of_subset nodup_countedKeys hsub
    exact Nat.le_antisymm (keysBelow_subperm n).length_le hback.length_le

/-- Restoring the columns succeeds just with a layout that uses up all fields and all records. There
are as many places as fields and counted names, so one of these without a place would leave a place
without a column. -/
theorem columns_eq_ok_iff {columns : List Column} :
    s.columns = .ok columns ↔ s.Layout 0 columns ∧ physicalColumns columns = s.fields ∧
      ∀ key ∈ s.countedKeys, ∃ i < columns.length, key = columnKey i .name := by
  rw [StoredTable.columns, columnsFrom_eq_ok_iff, ← countP_hasRecord_eq_iff]
  have hlen := length_eq_physical_add_nonPhysical columns
  constructor
  · intro h
    obtain ⟨hlay, hl, hp⟩ := h
    have hnon := hlay.length_nonPhysical
    rw [← List.range_eq_range'] at hnon
    have hle := countP_hasRecord_le (s := s) columns.length
    have hfields := hp.length_le
    exact ⟨hlay, hp.eq_of_length (by omega), by omega⟩
  · intro h
    obtain ⟨hlay, hp, hcount⟩ := h
    have hnon := hlay.length_nonPhysical
    rw [← List.range_eq_range'] at hnon
    refine ⟨hlay, ?_, hp ▸ List.prefix_rfl⟩
    rw [← hp]
    omega

end StoredTable

end FlatSchema
