import FlatSchema.Key
import Mathlib.Data.List.Basic

namespace FlatSchema

/-- Components that stay whole inside a key. -/
def Component.Dotless (c : Component) : Prop := '.' ∉ c.text.toList

instance (c : Component) : Decidable c.Dotless := inferInstanceAs (Decidable ('.' ∉ c.text.toList))

theorem toList_compoundKey (components : List Component) :
    (compoundKey components).toList =
      ['.'].intercalate (components.map (fun c => c.text.toList)) := by
  rw [compoundKey, String.toList_intercalate, List.map_map]
  rfl

/-- Splitting a key at its dots undoes joining its components. -/
theorem splitOn_compoundKey {components : List Component} (hne : components ≠ [])
    (h : ∀ c ∈ components, c.Dotless) :
    (compoundKey components).toList.splitOn '.' = components.map (fun c => c.text.toList) := by
  rw [toList_compoundKey]
  apply List.splitOn_intercalate
  · intro part hp
    obtain ⟨c, hc, rfl⟩ := List.mem_map.mp hp
    exact h c hc
  · simpa using hne

theorem texts_eq_of_compoundKey_eq {xs ys : List Component} (hx : xs ≠ []) (hy : ys ≠ [])
    (hxs : ∀ c ∈ xs, c.Dotless) (hys : ∀ c ∈ ys, c.Dotless)
    (h : compoundKey xs = compoundKey ys) :
    xs.map Component.text = ys.map Component.text := by
  have hl : xs.map (fun c => c.text.toList) = ys.map (fun c => c.text.toList) := by
    rw [← splitOn_compoundKey hx hxs, h, splitOn_compoundKey hy hys]
  apply List.map_injective_iff.mpr (fun _ _ => String.toList_inj.mp)
  simpa only [List.map_map, Function.comp_def] using hl

/-- Keys of components without dots are equal just if they join the same texts in the same order. -/
theorem compoundKey_eq_iff {xs ys : List Component} (hx : xs ≠ []) (hy : ys ≠ [])
    (hxs : ∀ c ∈ xs, c.Dotless) (hys : ∀ c ∈ ys, c.Dotless) :
    compoundKey xs = compoundKey ys ↔ xs.length = ys.length ∧
      ∀ (i : Nat) (hi : i < xs.length) (hj : i < ys.length), xs[i].text = ys[i].text := by
  have htexts : xs.map Component.text = ys.map Component.text ↔ xs.length = ys.length ∧
      ∀ (i : Nat) (hi : i < xs.length) (hj : i < ys.length), xs[i].text = ys[i].text := by
    rw [List.ext_getElem_iff]
    simp only [List.length_map, List.getElem_map]
  rw [← htexts]
  constructor
  · exact texts_eq_of_compoundKey_eq hx hy hxs hys
  · intro h
    rw [compoundKey, h, compoundKey]

theorem compoundKey_eq_iff_blank :
    compoundKey [.word "", .number (-3), .word ""] = compoundKey [.word "", .word "-3", .word ""] ∧
      compoundKey [.word "", .number (-3), .word ""] ≠ compoundKey [.word "", .number (-3)] := by
  have hspelled := @compoundKey_eq_iff [.word "", .number (-3), .word ""]
    [.word "", .word "-3", .word ""] (by simp) (by simp) (by decide) (by decide)
  have hshort := @compoundKey_eq_iff [.word "", .number (-3), .word ""]
    [.word "", .number (-3)] (by simp) (by simp) (by decide) (by decide)
  refine ⟨hspelled.mpr ⟨rfl, by decide⟩, ?_⟩
  intro h
  simpa using (hshort.mp h).1

-- No components at all join like a blank one, and a component with a dot joins like two.
example : compoundKey [] = compoundKey [.word ""] := by decide

example : compoundKey [.word "a.b"] = compoundKey [.word "a", .word "b"] := by decide

theorem text_number (n : Nat) : (Component.number n).text.toList = Nat.toDigits 10 n :=
  Nat.toList_repr

theorem dotless_number (n : Nat) : (Component.number n).Dotless := by
  intro h
  rw [text_number] at h
  exact absurd (Nat.isDigit_of_mem_toDigits (by decide) (by decide) h) (by decide)

theorem number_text_inj {i j : Nat}
    (h : (Component.number i).text = (Component.number j).text) : i = j := by
  have hd := congrArg (fun s : String => Nat.ofDigitChars 10 s.toList 0) h
  simpa [text_number] using hd

theorem ColumnField.word_inj {f g : ColumnField} (h : f.word = g.word) : f = g := by
  revert h
  cases f <;> cases g <;> decide

def columnComponents (index : Nat) (field : ColumnField) : List Component :=
  [.word "schema", .number index, .word field.word]

def watermarkComponents (field : WatermarkField) : List Component :=
  [.word "schema", .word "watermark", .number 0] ++ field.words

theorem dotless_columnComponents (i : Nat) (f : ColumnField) :
    ∀ c ∈ columnComponents i f, c.Dotless := by
  have hs : (Component.word "schema").Dotless := by unfold Component.Dotless; decide
  have hf : (Component.word f.word).Dotless := by unfold Component.Dotless; cases f <;> decide
  simp [columnComponents, hs, hf, dotless_number]

theorem dotless_watermarkComponents (f : WatermarkField) :
    ∀ c ∈ watermarkComponents f, c.Dotless := by
  unfold Component.Dotless
  cases f <;> decide

/-- Columns at different indices, and different fields of one column, have different keys. -/
theorem columnKey_inj {i j : Nat} {f g : ColumnField} :
    columnKey i f = columnKey j g ↔ i = j ∧ f = g := by
  constructor
  · intro h
    have ht := texts_eq_of_compoundKey_eq (by simp [columnComponents]) (by simp [columnComponents])
      (dotless_columnComponents i f) (dotless_columnComponents j g) h
    simp only [columnComponents, List.map_cons, List.cons.injEq] at ht
    exact ⟨number_text_inj ht.2.1, ColumnField.word_inj ht.2.2.1⟩
  · intro h
    obtain ⟨rfl, rfl⟩ := h
    rfl

theorem watermarkKey_inj {f g : WatermarkField} (h : watermarkKey f = watermarkKey g) : f = g := by
  revert h
  cases f <;> cases g <;> decide

/-- A watermark's key has more components than a column's. -/
theorem columnKey_ne_watermarkKey (i : Nat) (f : ColumnField) (g : WatermarkField) :
    columnKey i f ≠ watermarkKey g := by
  intro h
  have ht := texts_eq_of_compoundKey_eq (by simp [columnComponents]) (by simp [watermarkComponents])
    (dotless_columnComponents i f) (dotless_watermarkComponents g) h
  have hl := congrArg List.length ht
  cases g <;> simp [columnComponents, watermarkComponents, WatermarkField.words] at hl

theorem toList_columnKey (i : Nat) (f : ColumnField) :
    (columnKey i f).toList =
      reservedStart.toList ++ (Nat.toDigits 10 i ++ '.' :: f.word.toList) := by
  rw [columnKey, toList_compoundKey]
  simp only [List.map_cons, List.map_nil, List.intercalate_cons_cons, List.intercalate_singleton,
    text_number]
  simp [Component.text, reservedStart]

theorem isReserved_columnKey (i : Nat) (f : ColumnField) : isReserved (columnKey i f) := by
  rw [isReserved, startsWith, toList_columnKey, List.isPrefixOf_iff_prefix]
  exact List.prefix_append _ _

theorem isReserved_watermarkKey (f : WatermarkField) : isReserved (watermarkKey f) := by
  cases f <;> decide

theorem isWatermarkKey_watermarkKey (f : WatermarkField) : isWatermarkKey (watermarkKey f) := by
  cases f <;> decide

theorem isReserved_of_isWatermarkKey {key : String} (h : isWatermarkKey key) : isReserved key := by
  have hs : reservedStart.toList <+: watermarkStart.toList := by decide
  exact List.isPrefixOf_iff_prefix.mpr (hs.trans (List.isPrefixOf_iff_prefix.mp h))

/-- A column's key goes on with a digit where a watermark's does not. -/
theorem isWatermarkKey_columnKey (i : Nat) (f : ColumnField) :
    isWatermarkKey (columnKey i f) = false := by
  rw [Bool.eq_false_iff]
  intro h
  rw [isWatermarkKey, startsWith, toList_columnKey, List.isPrefixOf_iff_prefix] at h
  have hw : watermarkStart.toList = reservedStart.toList ++ "watermark".toList := by decide
  rw [hw, List.prefix_append_right_inj] at h
  cases hd : Nat.toDigits 10 i with
  | nil => exact Nat.toDigits_ne_nil hd
  | cons c rest =>
    have hc : c.isDigit := Nat.isDigit_of_mem_toDigits (by decide) (by decide)
      (hd ▸ List.mem_cons_self)
    rw [hd] at h
    have he : 'w' = c := (List.cons_prefix_cons.mp h).1
    rw [← he] at hc
    exact absurd hc (by decide)

/-- What a key that could name a column is made of. -/
theorem columnNameIndex?_eq_some_iff {key : String} {digits : List Char} :
    columnNameIndex? key = some digits ↔
      key.toList = reservedStart.toList ++ (digits ++ ".name".toList) := by
  simp only [columnNameIndex?, Option.bind_eq_some_iff, List.isPrefixOf?_eq_some_iff_append_eq,
    List.isSuffixOf?_eq_some_iff_append_eq]
  constructor
  · intro h
    obtain ⟨rest, hrest, hdigits⟩ := h
    rw [← hrest, hdigits]
  · intro h
    exact ⟨digits ++ ".name".toList, h.symm, rfl⟩

theorem columnNameIndex?_columnKey (i : Nat) :
    columnNameIndex? (columnKey i .name) = some (Nat.toDigits 10 i) :=
  columnNameIndex?_eq_some_iff.mpr (toList_columnKey i .name)

theorem isColumnNameKey_columnKey (i : Nat) : isColumnNameKey (columnKey i .name) := by
  have hd : (Nat.toDigits 10 i).all Char.isDigit := List.all_eq_true.mpr
    (fun c hc => Nat.isDigit_of_mem_toDigits (by decide) (by decide) hc)
  simp [isColumnNameKey, columnNameIndex?_columnKey, hd, Nat.toDigits_ne_nil]

theorem isColumnNameKey_iff {key : String} : isColumnNameKey key ↔
    ∃ digits, digits ≠ [] ∧ (∀ c ∈ digits, c.isDigit) ∧ columnNameIndex? key = some digits := by
  unfold isColumnNameKey
  cases columnNameIndex? key with
  | none => simp
  | some digits => simp

/-- Keys of the shape `schema.<digits>.name`. -/
def NamesColumn (key : String) : Prop :=
  ∃ digits : List Char, digits ≠ [] ∧ (∀ c ∈ digits, c.isDigit) ∧
    key.toList = "schema.".toList ++ (digits ++ ".name".toList)

theorem isColumnNameKey_iff_namesColumn {key : String} : isColumnNameKey key ↔ NamesColumn key := by
  simp only [isColumnNameKey_iff, columnNameIndex?_eq_some_iff]
  exact Iff.rfl

instance : DecidablePred NamesColumn :=
  fun _ => decidable_of_iff _ isColumnNameKey_iff_namesColumn

theorem isReserved_of_isColumnNameKey {key : String} (h : isColumnNameKey key) :
    isReserved key := by
  obtain ⟨digits, _, _, hk⟩ := isColumnNameKey_iff.mp h
  rw [isReserved, startsWith, columnNameIndex?_eq_some_iff.mp hk, List.isPrefixOf_iff_prefix]
  exact List.prefix_append _ _

/-- Of a column's keys only that of its name counts as one. -/
theorem field_eq_of_isColumnNameKey {i : Nat} {f : ColumnField}
    (h : isColumnNameKey (columnKey i f)) : f = .name := by
  obtain ⟨digits, _, _, hk⟩ := isColumnNameKey_iff.mp h
  have hl := columnNameIndex?_eq_some_iff.mp hk
  rw [toList_columnKey, List.append_cancel_left_eq] at hl
  have hs : ".name".toList <:+ Nat.toDigits 10 i ++ '.' :: f.word.toList := ⟨digits, hl.symm⟩
  have hf : '.' :: f.word.toList <:+ Nat.toDigits 10 i ++ '.' :: f.word.toList :=
    List.suffix_append _ _
  have := List.suffix_of_suffix_length_le hs hf (by cases f <;> decide)
  revert this
  cases f <;> decide

theorem isColumnNameKey_watermarkKey (f : WatermarkField) :
    isColumnNameKey (watermarkKey f) = false := by
  cases f <;> decide

theorem isColumnNameKey_columnKey_iff {i : Nat} {f : ColumnField} :
    isColumnNameKey (columnKey i f) ↔ f = .name := by
  constructor
  · exact field_eq_of_isColumnNameKey
  · intro h
    obtain rfl := h
    exact isColumnNameKey_columnKey i

/-- The keys of a schema are all different. Every one of them is reserved, just those of the
watermark announce one, and just those of columns' names count as such. -/
theorem schemaKeys_apart :
    (∀ i j f g, columnKey i f = columnKey j g ↔ i = j ∧ f = g) ∧
    (∀ i f g, columnKey i f ≠ watermarkKey g) ∧
    (∀ f g, watermarkKey f = watermarkKey g ↔ f = g) ∧
    (∀ i f, isWatermarkKey (columnKey i f) = false) ∧ (∀ f, isWatermarkKey (watermarkKey f)) ∧
    (∀ i f, isReserved (columnKey i f)) ∧ (∀ f, isReserved (watermarkKey f)) ∧
    (∀ i f, isColumnNameKey (columnKey i f) ↔ f = .name) ∧
    ∀ f, isColumnNameKey (watermarkKey f) = false := by
  refine ⟨fun _ _ _ _ => columnKey_inj, columnKey_ne_watermarkKey, ?_, isWatermarkKey_columnKey,
    isWatermarkKey_watermarkKey, isReserved_columnKey, isReserved_watermarkKey,
    fun _ _ => isColumnNameKey_columnKey_iff, isColumnNameKey_watermarkKey⟩
  intro f g
  constructor
  · exact watermarkKey_inj
  · exact congrArg watermarkKey

end FlatSchema
