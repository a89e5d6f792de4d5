import FlatSchema.Catalog.Error
import Mathlib.Data.List.TakeDrop
import Mathlib.Data.List.TakeWhile

namespace FlatSchema

/-- Texts that can name a database or a table. -/
def NamesPart (text : String) : Prop :=
  text ≠ "" ∧ ∀ c ∈ text.toList, c ≠ '.' ∧ c ≠ '/' ∧ c ≠ '\\' ∧ c ≠ '\x00'

theorem isName_iff_namesPart {text : String} : isName text ↔ NamesPart text := by
  simp [isName, isForbidden, NamesPart, and_assoc]

theorem dot_notMem_of_isName {text : String} (h : isName text) : '.' ∉ text.toList := by
  intro hdot
  exact ((isName_iff_namesPart.mp h).2 '.' hdot).1 rfl

namespace Identifier

variable {text database table : String} {id : Identifier}

theorem toList_joined (database table : String) :
    (database ++ "." ++ table).toList = database.toList ++ '.' :: table.toList := by
  simp

/-- A text is split at the dot before which there is none. -/
theorem split?_eq_some_iff : split? text = some (database, table) ↔
    text = database ++ "." ++ table ∧ '.' ∉ database.toList := by
  rw [split?, List.span_eq_takeWhile_dropWhile]
  constructor
  · intro h
    have hwhole := List.takeWhile_append_dropWhile (p := (· != '.')) (l := text.toList)
    have hhead := List.head?_dropWhile_not (· != '.') text.toList
    cases hrest : text.toList.dropWhile (· != '.') with
    | nil =>
      rw [hrest] at h
      cases h
    | cons c rest =>
      rw [hrest] at h hwhole hhead
      cases h
      obtain rfl : c = '.' := by simpa using hhead
      constructor
      · rw [← String.toList_inj, toList_joined, String.toList_ofList, String.toList_ofList, hwhole]
      · intro hdot
        rw [String.toList_ofList] at hdot
        simpa using List.mem_takeWhile_imp hdot
  · intro h
    obtain ⟨rfl, hdot⟩ := h
    have hbefore : ∀ c ∈ database.toList, (c != '.') = true := by
      intro c hc
      rw [bne_iff_ne]
      rintro rfl
      exact hdot hc
    rw [toList_joined, List.takeWhile_append_of_pos hbefore, List.dropWhile_append_of_pos hbefore]
    simp

/-- A text with a dot is split. -/
theorem exists_split? (h : '.' ∈ text.toList) :
    ∃ database table, split? text = some (database, table) := by
  cases hsplit : split? text with
  | some parts => exact ⟨parts.1, parts.2, rfl⟩
  | none =>
    rw [split?, List.span_eq_takeWhile_dropWhile] at hsplit
    cases hrest : text.toList.dropWhile (· != '.') with
    | nil => simpa using List.dropWhile_eq_nil_iff.mp hrest '.' h
    | cons c rest =>
      rw [hrest] at hsplit
      cases hsplit

theorem ofParts_eq_ok_iff :
    ofParts database table = .ok id ↔ id.database = database ∧ id.table = table := by
  unfold ofParts ofParts?
  constructor
  · intro h
    split at h
    · rename_i hparts
      split at hparts
      · cases hparts
        cases h
        exact ⟨rfl, rfl⟩
      · cases hparts
    · cases h
  · intro h
    obtain ⟨rfl, rfl⟩ := h
    rw [dif_pos ⟨id.isName_database, id.isName_table⟩]

/-- Two texts that cannot both be names are refused as the text of both. -/
theorem ofParts_eq_error (h : ¬(isName database ∧ isName table)) :
    ofParts database table = .error (.invalidIdentifier (database ++ "." ++ table)) := by
  rw [ofParts, ofParts?, dif_neg h]

theorem ofText_of_split? (h : split? text = some (database, table)) :
    ofText text = ofParts database table := by
  rw [ofText, h]

/-- Reading two texts with a dot between them is the same as taking them as parts. A dot in the
first makes the reading fall into other parts, of which the second is no name. -/
theorem ofText_joined (database table : String) :
    ofText (database ++ "." ++ table) = ofParts database table := by
  by_cases hdot : '.' ∈ database.toList
  · obtain ⟨first, second, hsplit⟩ := exists_split? hdot
    obtain ⟨rfl, hfirst⟩ := split?_eq_some_iff.mp hsplit
    have hjoined : first ++ "." ++ second ++ "." ++ table =
        first ++ "." ++ (second ++ "." ++ table) := by simp only [String.append_assoc]
    have hrest : ¬(isName first ∧ isName (second ++ "." ++ table)) := by
      intro hnames
      apply dot_notMem_of_isName hnames.2
      rw [toList_joined]
      simp
    have hwhole : ¬(isName (first ++ "." ++ second) ∧ isName table) :=
      fun hnames => dot_notMem_of_isName hnames.1 hdot
    rw [ofParts_eq_error hwhole, hjoined, ofText_of_split? (split?_eq_some_iff.mpr ⟨rfl, hfirst⟩),
      ofParts_eq_error hrest]
  · exact ofText_of_split? (split?_eq_some_iff.mpr ⟨rfl, hdot⟩)

/-- Exactly its own text is read as an identifier. -/
theorem ofText_eq_ok_iff : ofText text = .ok id ↔ id.text = text := by
  constructor
  · intro h
    cases hsplit : split? text with
    | none =>
      rw [ofText, hsplit] at h
      cases h
    | some parts =>
      rw [ofText_of_split? hsplit, ofParts_eq_ok_iff] at h
      rw [Identifier.text, h.1, h.2, (split?_eq_some_iff.mp hsplit).1]
  · intro h
    rw [← h, Identifier.text, ofText_joined, ofParts_eq_ok_iff]
    exact ⟨rfl, rfl⟩

theorem exists_ofText_iff : (∃ id, ofText text = .ok id) ↔
    ∃ database table, text = database ++ "." ++ table ∧ NamesPart database ∧ NamesPart table := by
  simp only [ofText_eq_ok_iff, ← isName_iff_namesPart]
  constructor
  · intro h
    obtain ⟨id, rfl⟩ := h
    exact ⟨id.database, id.table, rfl, id.isName_database, id.isName_table⟩
  · intro h
    obtain ⟨database, table, rfl, hdatabase, htable⟩ := h
    exact ⟨⟨database, table, hdatabase, htable⟩, rfl⟩

/-- A text that is not read is told as it is, whatever parts it falls into. -/
theorem ofText_eq_error_of_not_exists (h : ¬∃ id, ofText text = .ok id) :
    ofText text = .error (.invalidIdentifier text) := by
  cases hsplit : split? text with
  | none => rw [ofText, hsplit]
  | some parts =>
    obtain ⟨hjoined, -⟩ := split?_eq_some_iff.mp hsplit
    rw [ofText_of_split? hsplit] at h ⊢
    by_cases hnames : isName parts.1 ∧ isName parts.2
    · exact absurd ⟨⟨parts.1, parts.2, hnames.1, hnames.2⟩, ofParts_eq_ok_iff.mpr ⟨rfl, rfl⟩⟩ h
    · rw [ofParts_eq_error hnames, ← hjoined]

/-- A text is read just if it is two names with a dot between them, and it is then the text of the
identifier with these names; every other text is refused as it is. Two parts make the identifier,
or the error, that is read of the text of both, and different identifiers have different texts. -/
theorem ofText_reads_parts :
    (∀ text database table, (∃ id, ofText text = .ok id ∧ id.database = database ∧
        id.table = table ∧ id.text = text) ↔
      text = database ++ "." ++ table ∧ NamesPart database ∧ NamesPart table) ∧
    (∀ text, ofText text = .error (.invalidIdentifier text) ↔ ¬∃ database table,
      text = database ++ "." ++ table ∧ NamesPart database ∧ NamesPart table) ∧
    (∀ database table, ofParts database table = ofText (database ++ "." ++ table)) ∧
    (∀ id text, ofText text = .ok id ↔ id.text = text) ∧
    ∀ a b : Identifier, a.text = b.text ↔ a = b := by
  refine ⟨?_, ?_, fun database table => (ofText_joined database table).symm,
    fun id text => ofText_eq_ok_iff, ?_⟩
  · intro text database table
    simp only [ofText_eq_ok_iff, ← isName_iff_namesPart]
    constructor
    · intro h
      obtain ⟨id, rfl, rfl, rfl, -⟩ := h
      exact ⟨rfl, id.isName_database, id.isName_table⟩
    · intro h
      obtain ⟨rfl, hdatabase, htable⟩ := h
      exact ⟨⟨database, table, hdatabase, htable⟩, rfl, rfl, rfl, rfl⟩
  · intro text
    rw [← exists_ofText_iff]
    constructor
    · intro herror hread
      obtain ⟨id, hid⟩ := hread
      rw [herror] at hid
      cases hid
    · exact ofText_eq_error_of_not_exists
  · intro a b
    constructor
    · intro h
      have hread : ofText b.text = .ok a := ofText_eq_ok_iff.mpr h
      rw [ofText_eq_ok_iff.mpr rfl] at hread
      exact (Except.ok.inj hread).symm
    · intro h
      rw [h]

example : Identifier.ofParts "a.b" "c" = .error (.invalidIdentifier "a.b.c") := by decide

end Identifier

end FlatSchema
