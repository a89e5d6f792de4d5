import FlatSchema.Proofs.Encoding

namespace FlatSchema

/-- Options that have no key in common. -/
def Options.Disjoint (first second : Options) : Prop :=
  ∀ key, first.get? key = none ∨ second.get? key = none

/-- Encoding stops at the first column whose name has no index. -/
theorem encodeColumns_eq_error {indexOf : String → Option Nat}
    {before after : List NonPhysicalColumn} {c : NonPhysicalColumn}
    (hbefore : ∀ d ∈ before, (indexOf d.name).isSome) (hc : indexOf c.name = none) :
    encodeColumns indexOf (before ++ c :: after) = .error (.missingIndex c.name) := by
  apply except_foldlM_eq_error
  · intro options d hd
    obtain ⟨i, hi⟩ := Option.isSome_iff_exists.mp (hbefore d hd)
    rw [hi]
    exact ⟨_, rfl⟩
  · intro options
    rw [hc]

namespace Indexed

variable {indexOf : String → Option Nat} {columns order first second : List NonPhysicalColumn}

theorem perm (h : Indexed indexOf columns) (hp : order.Perm columns) :
    Indexed indexOf order where
  names := (hp.map NonPhysicalColumn.name).nodup_iff.mpr h.names
  assigned c hc := h.assigned c (hp.mem_iff.mp hc)
  apart c hc d hd := h.apart c (hp.mem_iff.mp hc) d (hp.mem_iff.mp hd)

theorem sublist (h : Indexed indexOf columns) (hs : order.Sublist columns) :
    Indexed indexOf order where
  names := h.names.sublist (hs.map NonPhysicalColumn.name)
  assigned c hc := h.assigned c (hs.mem hc)
  apart c hc d hd := h.apart c (hs.mem hc) d (hs.mem hd)

theorem left (h : Indexed indexOf (first ++ second)) : Indexed indexOf first :=
  h.sublist (List.sublist_append_left first second)

theorem right (h : Indexed indexOf (first ++ second)) : Indexed indexOf second :=
  h.sublist (List.sublist_append_right first second)

/-- The entries of columns are those of their records, whatever the order of the columns. -/
theorem get?_records_eq_some_iff (h : Indexed indexOf columns) {key value : String} :
    (records indexOf columns).get? key = some value ↔
      ∃ c ∈ columns, ∃ f, key = columnKey (place indexOf c) f ∧ c.value? f = some value := by
  constructor
  · intro hget
    rcases SortedMap.mem_of_get?_insertMany hget with hm | hm
    · exact mem_placedEntries.mp hm
    · cases hm
  · intro hentry
    obtain ⟨c, hc, f, rfl, hvalue⟩ := hentry
    exact (get?_placed h.nodup_places hc f).trans hvalue

theorem records_perm (h : Indexed indexOf columns) (hp : order.Perm columns) :
    records indexOf order = records indexOf columns := by
  apply SortedMap.ext_of_get?_eq_some_iff
  intro key value
  rw [(h.perm hp).get?_records_eq_some_iff, h.get?_records_eq_some_iff]
  simp only [hp.mem_iff]

/-- No column of one part has its index in common with one of the other. -/
theorem disjoint_records (h : Indexed indexOf (first ++ second)) :
    (records indexOf first).Disjoint (records indexOf second) := by
  intro key
  by_contra hboth
  simp only [not_or, Option.ne_none_iff_exists'] at hboth
  obtain ⟨⟨value, hfirst⟩, ⟨value', hsecond⟩⟩ := hboth
  rw [h.left.get?_records_eq_some_iff] at hfirst
  rw [h.right.get?_records_eq_some_iff] at hsecond
  obtain ⟨c, hc, f, rfl, -⟩ := hfirst
  obtain ⟨d, hd, g, hkey, -⟩ := hsecond
  have hplaces := h.nodup_places
  rw [List.map_append, List.nodup_append] at hplaces
  exact hplaces.2.2 _ (List.mem_map_of_mem hc) _ (List.mem_map_of_mem hd) (columnKey_inj.mp hkey).1

theorem records_append (h : Indexed indexOf (first ++ second)) :
    (records indexOf first).union (records indexOf second) =
      records indexOf (first ++ second) := by
  have hdisjoint : ∀ key value, (records indexOf second).get? key = some value →
      (records indexOf first).get? key = none := by
    intro key value hsecond
    apply (h.disjoint_records key).resolve_right
    rw [hsecond]
    exact Option.some_ne_none value
  apply SortedMap.ext_of_get?_eq_some_iff
  intro key value
  rw [Options.get?_union_eq_some_iff hdisjoint, h.get?_records_eq_some_iff,
    h.left.get?_records_eq_some_iff, h.right.get?_records_eq_some_iff]
  simp only [List.mem_append, or_and_right, exists_or]

/-- Columns with an index each are encoded to one map in every order, and that map is made up of
what any two parts of them are encoded to, which have no key in common. Where a name has no index,
encoding fails in every order, and the error tells the first such name in that order. -/
theorem encodeColumns_any_order (indexOf : String → Option Nat)
    (columns : List NonPhysicalColumn) :
    (Indexed indexOf columns → ∃ options,
      (∀ order, order.Perm columns → encodeColumns indexOf order = .ok options) ∧
      ∀ first second, (first ++ second).Perm columns → ∃ left right,
        encodeColumns indexOf first = .ok left ∧ encodeColumns indexOf second = .ok right ∧
        left.Disjoint right ∧ left.union right = options) ∧
    ((∃ c ∈ columns, indexOf c.name = none) → ∀ order, order.Perm columns →
      ∃ before c after, order = before ++ c :: after ∧
        (∀ d ∈ before, (indexOf d.name).isSome) ∧ indexOf c.name = none ∧
        encodeColumns indexOf order = .error (.missingIndex c.name)) := by
  constructor
  · intro h
    refine ⟨records indexOf columns, ?_, ?_⟩
    · intro order hp
      rw [(h.perm hp).encodeColumns_eq, h.records_perm hp]
    · intro first second hp
      have hparts := h.perm hp
      refine ⟨records indexOf first, records indexOf second, hparts.left.encodeColumns_eq,
        hparts.right.encodeColumns_eq, hparts.disjoint_records, ?_⟩
      rw [hparts.records_append, h.records_perm hp]
  · intro hmissing order hp
    obtain ⟨d, hd, hnone⟩ := hmissing
    have hfound : (order.find? (fun c => (indexOf c.name).isNone)).isSome :=
      List.find?_isSome.mpr ⟨d, hp.mem_iff.mpr hd, Option.isNone_iff_eq_none.mpr hnone⟩
    obtain ⟨c, hfirst⟩ := Option.isSome_iff_exists.mp hfound
    obtain ⟨hc, before, after, rfl, hbefore⟩ := List.find?_eq_some_iff_append.mp hfirst
    have hassigned : ∀ d ∈ before, (indexOf d.name).isSome := by simpa using hbefore
    rw [Option.isNone_iff_eq_none] at hc
    exact ⟨before, c, after, rfl, hassigned, hc, encodeColumns_eq_error hassigned hc⟩

def region : MetadataColumn := .plain "region" ⟨.string, true⟩ true

/-- Two of the columns have no index. -/
def plannedColumns : List NonPhysicalColumn :=
  [.computed total, .computed ⟨"margin", ⟨.decimal 10 2, true⟩, "total - cost"⟩, .metadata region]

theorem encodeColumns_any_order_sold :
    (Indexed soldIndices soldColumns ∧ soldColumns.reverse.Perm soldColumns ∧
      ∃ left right, encodeColumns soldIndices [.metadata topic] = .ok left ∧
        encodeColumns soldIndices [.computed total] = .ok right ∧ left.Disjoint right ∧
        encodeColumns soldIndices soldColumns = .ok (left.union right)) ∧
    (∃ c ∈ plannedColumns, soldIndices c.name = none) ∧
      plannedColumns.reverse.Perm plannedColumns ∧
      encodeColumns soldIndices plannedColumns.reverse = .error (.missingIndex "region") := by
  have hindexed : Indexed soldIndices soldColumns := by decide
  have hsold : soldColumns.reverse.Perm soldColumns := List.reverse_perm _
  obtain ⟨options, horder, hparts⟩ := (encodeColumns_any_order soldIndices soldColumns).1 hindexed
  obtain ⟨left, right, hleft, hright, hdisjoint, hunion⟩ :=
    hparts [.metadata topic] [.computed total] hsold
  have hmissing : ∃ c ∈ plannedColumns, soldIndices c.name = none := by decide
  have hplanned : plannedColumns.reverse.Perm plannedColumns := List.reverse_perm _
  obtain ⟨before, c, after, hsplit, hassigned, -, herror⟩ :=
    (encodeColumns_any_order soldIndices plannedColumns).2 hmissing _ hplanned
  have hfirst : NonPhysicalColumn.metadata region = c := by
    cases before with
    | nil => exact (List.cons.inj hsplit).1
    | cons d before =>
      obtain rfl := (List.cons.inj hsplit).1
      exact absurd (hassigned _ List.mem_cons_self) (by decide)
  subst hfirst
  exact ⟨⟨hindexed, hsold, left, right, hleft, hright, hdisjoint,
    (horder soldColumns (List.Perm.refl _)).trans (congrArg Except.ok hunion.symm)⟩,
    hmissing, hplanned, herror⟩

end Indexed

end FlatSchema
