import FlatSchema.Proofs.Keys
import FlatSchema.Proofs.Outcomes
import FlatSchema.Proofs.TypeText
import FlatSchema.Record
import Mathlib.Data.List.Nodup

namespace FlatSchema

def NonPhysicalColumn.Canonical (c : NonPhysicalColumn) : Prop := c.dataType.Canonical

instance (c : NonPhysicalColumn) : Decidable c.Canonical :=
  inferInstanceAs (Decidable c.dataType.Canonical)

def Watermark.Canonical (w : Watermark) : Prop := w.dataType.Canonical

instance (w : Watermark) : Decidable w.Canonical :=
  inferInstanceAs (Decidable w.dataType.Canonical)

theorem readFlag_flagText (flag : Bool) : readFlag (flagText flag) = flag := by
  cases flag <;> decide

namespace MetadataColumn

@[simp] theorem name_withAlias (name : String) (dataType : TypeDescriptor) (key : String)
    (isVirtual : Bool) : (withAlias name dataType key isVirtual).name = name := by
  unfold withAlias plain
  split <;> rfl

@[simp] theorem dataType_withAlias (name : String) (dataType : TypeDescriptor) (key : String)
    (isVirtual : Bool) : (withAlias name dataType key isVirtual).dataType = dataType := by
  unfold withAlias plain
  split <;> rfl

@[simp] theorem isVirtual_withAlias (name : String) (dataType : TypeDescriptor) (key : String)
    (isVirtual : Bool) : (withAlias name dataType key isVirtual).isVirtual = isVirtual := by
  unfold withAlias plain
  split <;> rfl

@[simp] theorem metadataKey_withAlias (name : String) (dataType : TypeDescriptor) (key : String)
    (isVirtual : Bool) : (withAlias name dataType key isVirtual).metadataKey = key := by
  unfold withAlias metadataKey plain
  split
  · rename_i he
    exact he.symm
  · rfl

/-- A column is made again of the key that it is read from, be it an alias or the name. -/
theorem withAlias_metadataKey (c : MetadataColumn) :
    withAlias c.name c.dataType c.metadataKey c.isVirtual = c := by
  obtain ⟨name, dataType, explicitAlias, isVirtual, hne⟩ := c
  cases explicitAlias with
  | none => simp [withAlias, metadataKey, plain]
  | some key =>
    have hk : key ≠ name := fun he => hne (congrArg some he)
    simp [withAlias, metadataKey, hk]

end MetadataColumn

namespace NonPhysicalColumn

/-- What the record of a column holds in a field. -/
def value? : NonPhysicalColumn → ColumnField → Option String
  | c, .name => some c.name
  | c, .dataType => some c.dataType.text
  | computed column, .expression => some column.expression
  | metadata column, .metadata => some column.metadataKey
  | metadata column, .isVirtual => some (flagText column.isVirtual)
  | _, _ => none

theorem mem_record {c : NonPhysicalColumn} {i : Nat} {key value : String} :
    (key, value) ∈ c.record i ↔ ∃ f, key = columnKey i f ∧ c.value? f = some value := by
  constructor
  · intro h
    cases c with
    | computed column =>
      simp only [record, List.cons_append, List.nil_append, List.mem_cons, Prod.mk.injEq,
        List.not_mem_nil, or_false] at h
      rcases h with ⟨rfl, rfl⟩ | ⟨rfl, rfl⟩ | ⟨rfl, rfl⟩
      exacts [⟨.name, rfl, rfl⟩, ⟨.dataType, rfl, rfl⟩, ⟨.expression, rfl, rfl⟩]
    | metadata column =>
      simp only [record, List.cons_append, List.nil_append, List.mem_cons, Prod.mk.injEq,
        List.not_mem_nil, or_false] at h
      rcases h with ⟨rfl, rfl⟩ | ⟨rfl, rfl⟩ | ⟨rfl, rfl⟩ | ⟨rfl, rfl⟩
      exacts [⟨.name, rfl, rfl⟩, ⟨.dataType, rfl, rfl⟩, ⟨.metadata, rfl, rfl⟩,
        ⟨.isVirtual, rfl, rfl⟩]
  · intro h
    obtain ⟨f, rfl, hf⟩ := h
    cases c <;> cases f <;> simp_all [record, value?]

theorem nodup_record (c : NonPhysicalColumn) (i : Nat) : ((c.record i).map Prod.fst).Nodup := by
  cases c <;> simp [record, columnKey_inj]

/-- The keys of a record have its own index, and fields in which it holds something. -/
theorem value?_of_mem_record {c : NonPhysicalColumn} {j i : Nat} {f : ColumnField}
    (h : columnKey i f ∈ (c.record j).map Prod.fst) : j = i ∧ ∃ value, c.value? f = some value := by
  obtain ⟨⟨_, value⟩, hentry, rfl⟩ := List.mem_map.mp h
  obtain ⟨g, hkey, hvalue⟩ := mem_record.mp hentry
  obtain ⟨rfl, rfl⟩ := columnKey_inj.mp hkey
  exact ⟨rfl, value, hvalue⟩

/-- What a record does not hold stays as it was before. -/
theorem get?_insertMany_record (options : Options) (c : NonPhysicalColumn) (j i : Nat)
    (f : ColumnField) : (options.insertMany (c.record j)).get? (columnKey i f) =
      if j = i then (c.value? f).or (options.get? (columnKey i f))
      else options.get? (columnKey i f) := by
  by_cases hij : j = i
  · obtain rfl := hij
    rw [if_pos rfl]
    cases hvalue : c.value? f with
    | some value =>
      have hentry : (columnKey j f, value) ∈ c.record j := mem_record.mpr ⟨f, rfl, hvalue⟩
      exact SortedMap.get?_insertMany_of_mem (c.nodup_record j) hentry options
    | none =>
      rw [Option.none_or]
      apply SortedMap.get?_insertMany_of_not_mem
      intro hm
      obtain ⟨_, value, hsome⟩ := value?_of_mem_record hm
      rw [hvalue] at hsome
      cases hsome
  · rw [if_neg hij]
    exact SortedMap.get?_insertMany_of_not_mem (fun hm => hij (value?_of_mem_record hm).1) options

end NonPhysicalColumn

theorem Options.require_eq_ok_iff {options : Options} {key value : String} :
    options.require key = .ok value ↔ options.get? key = some value := by
  unfold Options.require
  cases options.get? key <;> simp

theorem TypeDescriptor.ofText_eq_ok_iff {text : String} {t : TypeDescriptor} :
    TypeDescriptor.ofText text = .ok t ↔ ofText? text = some t := by
  unfold TypeDescriptor.ofText
  cases ofText? text <;> simp

/-- What a decoded column owes to the entries at an index. -/
structure NonPhysicalColumn.FoundAt (options : Options) (i : Nat) (c : NonPhysicalColumn) :
    Prop where
  name : options.get? (columnKey i .name) = some c.name
  dataType : ∃ text, options.get? (columnKey i .dataType) = some text ∧
    TypeDescriptor.ofText? text = some c.dataType
  kind : match c with
    | computed column => options.get? (columnKey i .expression) = some column.expression
    | metadata column => options.get? (columnKey i .expression) = none ∧
      options.get? (columnKey i .metadata) = some column.metadataKey ∧
      (options.get? (columnKey i .isVirtual)).any readFlag = column.isVirtual

/-- Exactly the columns that are found at an index are decoded there. -/
theorem decodeColumn_eq_ok_iff {options : Options} {i : Nat} {c : NonPhysicalColumn} :
    decodeColumn options i = .ok c ↔ c.FoundAt options i := by
  constructor
  · intro h
    obtain ⟨name, hn, h⟩ := except_bind_eq_ok_iff.mp h
    obtain ⟨text, ht, h⟩ := except_bind_eq_ok_iff.mp h
    obtain ⟨dataType, hd, h⟩ := except_bind_eq_ok_iff.mp h
    rw [Options.require_eq_ok_iff] at hn ht
    rw [TypeDescriptor.ofText_eq_ok_iff] at hd
    cases he : options.get? (columnKey i .expression) with
    | some expression =>
      rw [he] at h
      cases h
      exact ⟨hn, ⟨text, ht, hd⟩, he⟩
    | none =>
      cases hm : options.get? (columnKey i .metadata) with
      | none =>
        rw [he, hm] at h
        cases h
      | some key =>
        rw [he, hm] at h
        cases h
        exact ⟨by simpa [NonPhysicalColumn.name] using hn,
          ⟨text, ht, by simpa [NonPhysicalColumn.dataType] using hd⟩, he, by simp [hm], by simp⟩
  · intro h
    obtain ⟨hn, ⟨text, ht, hd⟩, hk⟩ := h
    unfold decodeColumn
    rw [Options.require_eq_ok_iff.mpr hn, Options.require_eq_ok_iff.mpr ht,
      except_bind_ok, except_bind_ok, TypeDescriptor.ofText_eq_ok_iff.mpr hd, except_bind_ok]
    cases c with
    | computed column =>
      rw [hk]
      rfl
    | metadata column =>
      obtain ⟨he, hm, hv⟩ := hk
      rw [he, hm, hv]
      have hself := column.withAlias_metadataKey
      exact congrArg (fun c => Except.ok (NonPhysicalColumn.metadata c)) hself

/-- Options that hold just the entries of a column at an index hold the column there. -/
theorem decodeColumn_of_entries {options : Options} {i : Nat} {c : NonPhysicalColumn}
    (h : ∀ f, options.get? (columnKey i f) = c.value? f) (hc : c.Canonical) :
    decodeColumn options i = .ok c := by
  refine decodeColumn_eq_ok_iff.mpr
    ⟨h .name, ⟨_, h .dataType, TypeDescriptor.ofText?_text_of_canonical hc⟩, ?_⟩
  cases c with
  | computed column => exact h .expression
  | metadata column =>
    refine ⟨h .expression, h .metadata, ?_⟩
    rw [h .isVirtual]
    exact readFlag_flagText column.isVirtual

/-- The entries of columns, each at its place. -/
def placedEntries (place : NonPhysicalColumn → Nat) (columns : List NonPhysicalColumn) :
    List (String × String) :=
  columns.flatMap (fun c => c.record (place c))

theorem insertMany_placedEntries_cons (place : NonPhysicalColumn → Nat) (c : NonPhysicalColumn)
    (rest : List NonPhysicalColumn) (options : Options) :
    options.insertMany (placedEntries place (c :: rest)) =
      (options.insertMany (c.record (place c))).insertMany (placedEntries place rest) := by
  simp [placedEntries, SortedMap.insertMany, List.foldl_append]

/-- Columns that all have an index are encoded entry by entry. -/
theorem encodeColumns_eq_ok {indexOf : String → Option Nat} {place : NonPhysicalColumn → Nat}
    {columns : List NonPhysicalColumn} (h : ∀ c ∈ columns, indexOf c.name = some (place c)) :
    encodeColumns indexOf columns = .ok (.ofList (placedEntries place columns)) := by
  have hsteps : ∀ (options : Options), columns.foldl
      (fun options c => options.insertMany (c.record (place c))) options =
        options.insertMany (placedEntries place columns) := by
    clear h
    induction columns with
    | nil => exact fun _ => rfl
    | cons c rest ih =>
      intro options
      rw [List.foldl_cons, ih, insertMany_placedEntries_cons]
  rw [encodeColumns, except_foldlM_eq_ok, hsteps]
  · rfl
  · intro options c hc
    rw [h c hc]

theorem mem_placedEntries {place : NonPhysicalColumn → Nat} {columns : List NonPhysicalColumn}
    {key value : String} :
    (key, value) ∈ placedEntries place columns ↔
      ∃ c ∈ columns, ∃ f, key = columnKey (place c) f ∧ c.value? f = some value := by
  simp only [placedEntries, List.mem_flatMap, NonPhysicalColumn.mem_record]

theorem nodup_nameKeys {place : NonPhysicalColumn → Nat} {columns : List NonPhysicalColumn}
    (h : (columns.map place).Nodup) :
    (columns.map (fun c => columnKey (place c) .name)).Nodup := by
  rw [← Function.comp_def (columnKey · .name), ← List.map_map]
  exact h.map (fun _ _ he => (columnKey_inj.mp he).1)

/-- An entry of an index is that of the last column there that has one, or is as it was before. -/
theorem get?_insertMany_placed (place : NonPhysicalColumn → Nat)
    (columns : List NonPhysicalColumn) (options : Options) (i : Nat) (f : ColumnField) :
    (options.insertMany (placedEntries place columns)).get? (columnKey i f) =
      (((columns.filter (place · = i)).filterMap (·.value? f)).getLast?).or
        (options.get? (columnKey i f)) := by
  induction columns generalizing options with
  | nil => rfl
  | cons c rest ih =>
    rw [insertMany_placedEntries_cons, ih, NonPhysicalColumn.get?_insertMany_record]
    by_cases hc : place c = i
    · rw [if_pos hc, List.filter_cons_of_pos (by simpa using hc)]
      cases hvalue : c.value? f with
      | none => simp only [List.filterMap_cons, hvalue, Option.none_or]
      | some value =>
        simp only [List.filterMap_cons, hvalue, List.getLast?_cons]
        cases ((rest.filter (place · = i)).filterMap (·.value? f)).getLast? <;> rfl
    · rw [if_neg hc, List.filter_cons_of_neg (by simpa using hc)]

/-- Columns at different places do not touch each other's entries. -/
theorem get?_placed {place : NonPhysicalColumn → Nat} {columns : List NonPhysicalColumn}
    (hn : (columns.map place).Nodup) {c : NonPhysicalColumn} (hc : c ∈ columns) (f : ColumnField) :
    (SortedMap.ofList (placedEntries place columns)).get? (columnKey (place c) f) = c.value? f := by
  have halone : columns.filter (place · = place c) = [c] := by
    obtain ⟨before, after, rfl⟩ := List.append_of_mem hc
    rw [List.map_append, List.map_cons, List.nodup_middle, List.nodup_cons, ← List.map_append,
      List.mem_map] at hn
    have hothers : ∀ d ∈ before ++ after, ¬place d = place c := fun d hd he => hn.1 ⟨d, hd, he⟩
    simp only [List.mem_append, or_imp, forall_and] at hothers
    rw [List.filter_append, List.filter_cons_of_pos (by simp),
      List.filter_eq_nil_iff.mpr (by simpa using hothers.1),
      List.filter_eq_nil_iff.mpr (by simpa using hothers.2), List.nil_append]
  have hget := get?_insertMany_placed place columns .empty (place c) f
  rw [halone] at hget
  rw [SortedMap.ofList, hget]
  cases hvalue : c.value? f <;> simp [hvalue]

theorem get?_placed_of_ne {place : NonPhysicalColumn → Nat} {columns : List NonPhysicalColumn}
    {i : Nat} (h : ∀ c ∈ columns, place c ≠ i) (f : ColumnField) :
    (SortedMap.ofList (placedEntries place columns)).get? (columnKey i f) = none := by
  have hnone : columns.filter (place · = i) = [] := by simpa using h
  have hget := get?_insertMany_placed place columns .empty i f
  rw [hnone] at hget
  exact hget

theorem columnKey_of_placed {place : NonPhysicalColumn → Nat} {columns : List NonPhysicalColumn}
    {key value : String}
    (h : (SortedMap.ofList (placedEntries place columns)).get? key = some value) :
    ∃ i f, key = columnKey i f := by
  rcases SortedMap.mem_of_get?_insertMany h with hm | hm
  · obtain ⟨c, _, f, hk, _⟩ := mem_placedEntries.mp hm
    exact ⟨place c, f, hk⟩
  · cases hm

theorem get?_placed_watermarkKey (place : NonPhysicalColumn → Nat)
    (columns : List NonPhysicalColumn) (f : WatermarkField) :
    (SortedMap.ofList (placedEntries place columns)).get? (watermarkKey f) = none := by
  rw [Option.eq_none_iff_forall_ne_some]
  intro value h
  obtain ⟨i, g, hk⟩ := columnKey_of_placed h
  exact columnKey_ne_watermarkKey i g f hk.symm

theorem isRecordName_iff {physical : List String} {key name : String} :
    isRecordName physical key name ↔ isColumnNameKey key ∧ name ∉ physical := by
  simp [isRecordName]

/-- As many names are counted as there are keys under which one is found. -/
theorem countNonPhysical_eq_length {options : Options} {physical : List String}
    {keys : List String} (hkeys : keys.Nodup)
    (hfound : ∀ key, key ∈ keys ↔
      ∃ name, options.get? key = some name ∧ isRecordName physical key name) :
    countNonPhysical options physical = keys.length := by
  have hcounted : ((options.entries.filter (fun e => isRecordName physical e.1 e.2)).map
      Prod.fst).Nodup := options.nodup_keys.sublist (List.filter_sublist.map Prod.fst)
  have hperm := (List.perm_ext_iff_of_nodup hcounted hkeys).mpr (fun key => by
    simp [hfound, SortedMap.get?_eq_some_iff])
  rw [← hperm.length_eq, List.length_map, countNonPhysical, List.countP_eq_length_filter]

namespace Watermark

/-- What the record of a watermark holds in a field. -/
def value (w : Watermark) : WatermarkField → String
  | .rowtime => w.rowtime
  | .expression => w.expression
  | .dataType => w.dataType.text

theorem mem_record {w : Watermark} {key value : String} :
    (key, value) ∈ w.record ↔ ∃ f, key = watermarkKey f ∧ w.value f = value := by
  constructor
  · intro h
    simp only [record, List.mem_cons, Prod.mk.injEq, List.not_mem_nil, or_false] at h
    rcases h with ⟨rfl, rfl⟩ | ⟨rfl, rfl⟩ | ⟨rfl, rfl⟩
    exacts [⟨.rowtime, rfl, rfl⟩, ⟨.expression, rfl, rfl⟩, ⟨.dataType, rfl, rfl⟩]
  · intro h
    obtain ⟨f, rfl, rfl⟩ := h
    cases f <;> simp [record, value]

theorem nodup_record (w : Watermark) : (w.record.map Prod.fst).Nodup := by
  change [watermarkKey .rowtime, watermarkKey .expression, watermarkKey .dataType].Nodup
  decide

end Watermark

theorem get?_encodeWatermark (w : Watermark) (f : WatermarkField) :
    (encodeWatermark w).get? (watermarkKey f) = some (w.value f) :=
  SortedMap.get?_insertMany_of_mem w.nodup_record (Watermark.mem_record.mpr ⟨f, rfl, rfl⟩) _

theorem watermarkKey_of_encodeWatermark {w : Watermark} {key value : String}
    (h : (encodeWatermark w).get? key = some value) : ∃ f, key = watermarkKey f := by
  rcases SortedMap.mem_of_get?_insertMany h with hm | hm
  · obtain ⟨f, hk, _⟩ := Watermark.mem_record.mp hm
    exact ⟨f, hk⟩
  · cases hm

theorem get?_encodeWatermark_columnKey (w : Watermark) (i : Nat) (f : ColumnField) :
    (encodeWatermark w).get? (columnKey i f) = none := by
  rw [Option.eq_none_iff_forall_ne_some]
  intro value h
  obtain ⟨g, hk⟩ := watermarkKey_of_encodeWatermark h
  exact columnKey_ne_watermarkKey i f g hk

/-- Exactly the watermark is decoded whose three entries are there. -/
theorem decodeWatermark_eq_ok_iff {options : Options} {w : Watermark} :
    decodeWatermark options = .ok w ↔
      options.get? (watermarkKey .rowtime) = some w.rowtime ∧
      options.get? (watermarkKey .expression) = some w.expression ∧
      ∃ text, options.get? (watermarkKey .dataType) = some text ∧
        TypeDescriptor.ofText? text = some w.dataType := by
  simp only [decodeWatermark, except_bind_eq_ok_iff, Options.require_eq_ok_iff,
    TypeDescriptor.ofText_eq_ok_iff, Except.ok.injEq]
  constructor
  · intro h
    obtain ⟨rowtime, hr, expression, he, text, ht, dataType, hd, rfl⟩ := h
    exact ⟨hr, he, text, ht, hd⟩
  · intro h
    obtain ⟨hr, he, text, ht, hd⟩ := h
    exact ⟨_, hr, _, he, text, ht, _, hd, rfl⟩

theorem decodeWatermark_of_entries {options : Options} {w : Watermark}
    (h : ∀ f, options.get? (watermarkKey f) = some (w.value f)) (hw : w.Canonical) :
    decodeWatermark options = .ok w :=
  decodeWatermark_eq_ok_iff.mpr ⟨h .rowtime, h .expression, _, h .dataType,
    TypeDescriptor.ofText?_text_of_canonical hw⟩

theorem Options.hasWatermark_iff {options : Options} :
    options.hasWatermark ↔ ∃ key value, options.get? key = some value ∧ isWatermarkKey key := by
  simp only [Options.hasWatermark, List.any_eq_true, SortedMap.mem_keys_iff]
  constructor
  · intro h
    obtain ⟨key, ⟨value, hv⟩, hk⟩ := h
    exact ⟨key, value, hv, hk⟩
  · intro h
    obtain ⟨key, value, hv, hk⟩ := h
    exact ⟨key, ⟨value, hv⟩, hk⟩

@[simp] theorem Options.get?_user (options : Options) (key : String) :
    options.user.get? key = if isReserved key then none else options.get? key := by
  rw [Options.user, SortedMap.get?_filter_key]
  by_cases hr : isReserved key <;> simp [hr]

end FlatSchema
