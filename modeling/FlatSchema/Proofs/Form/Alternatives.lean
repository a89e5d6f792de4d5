import FlatSchema.Proofs.Form.Column

namespace FlatSchema

namespace Json

variable {α : Type}

/-- Reads a whole value with the first of several readers that can. Why none of them can is not
told. -/
def readFirst (depth : Nat) (readers : List (Reader α)) : Reader α := fun t =>
  if t.isWhole depth then ofOption (readers.findSome? (fun read => (read t).toOption))
  else .error .malformed

/-- No two of the readers read the same value. -/
def Exclusive (readers : List (Reader α)) : Prop :=
  readers.Pairwise (fun read other => ∀ t v w, read t = .ok v → other t ≠ .ok w)

theorem Exclusive.perm {readers order : List (Reader α)} (h : Exclusive readers)
    (hp : order.Perm readers) : Exclusive order := by
  refine hp.symm.pairwise h ?_
  intro read other hexcludes t v w hother hread
  exact hexcludes t w v hread hother

/-- The first reader that can read a value is the only one. -/
theorem Exclusive.findSome?_eq_some_iff {readers : List (Reader α)} (h : Exclusive readers)
    {t : Tree} {v : α} : readers.findSome? (fun read => (read t).toOption) = some v ↔
      ∃ read ∈ readers, read t = .ok v := by
  induction readers with
  | nil => simp
  | cons read rest ih =>
    obtain ⟨hothers, hrest⟩ := List.pairwise_cons.mp h
    rw [List.findSome?_cons]
    simp only [List.mem_cons, exists_eq_or_imp]
    cases hread : read t with
    | ok w =>
      simp only [Except.toOption, Option.some.injEq, Except.ok.injEq]
      constructor
      · exact .inl
      · rintro (hw | ⟨other, hmem, hother⟩)
        · exact hw
        · exact absurd hother (hothers other hmem t w v hread)
    | error e =>
      simp only [Except.toOption, reduceCtorEq, false_or]
      exact ih hrest

theorem readFirst_perm {readers order : List (Reader α)} (h : Exclusive readers)
    (hp : order.Perm readers) (depth : Nat) (t : Tree) :
    readFirst depth order t = readFirst depth readers t := by
  have hsame : order.findSome? (fun read => (read t).toOption) =
      readers.findSome? (fun read => (read t).toOption) := by
    apply Option.ext
    intro v
    rw [(h.perm hp).findSome?_eq_some_iff, h.findSome?_eq_some_iff]
    simp only [hp.mem_iff]
  rw [readFirst, readFirst, hsame]

end Json

open Json

/-- A physical column has no member beside its own. -/
theorem PhysicalColumn.read_ne_ok_of_kind {members : List (Option String × Tree)} {closed : Bool}
    {value : Tree} (hkind : (some "kind", value) ∈ members) (c : PhysicalColumn) :
    PhysicalColumn.read (.object members closed) ≠ .ok c := by
  intro h
  obtain ⟨d, hd, -⟩ := Shape.read_object_eq_ok_iff.mp h
  obtain ⟨f, hf, hname⟩ := exists_field_of_readMembers rfl hd _ hkind
  have hfields : ∀ f ∈ shape.fields, f.name ≠ "kind" := by simp [shape]
  exact hfields f hf (Option.some.inj hname).symm

/-- An array that reads as a physical column has no place for a kind. -/
theorem PhysicalColumn.length_le_of_read {items : List Tree} {closed : Bool} {c : PhysicalColumn}
    (h : PhysicalColumn.read (.array items closed) = .ok c) : items.length ≤ 2 := by
  obtain ⟨d, hd, -⟩ := Shape.read_array_eq_ok_iff.mp h
  exact length_le_of_readPlaces hd

/-- A column is not finished before its type has been read. -/
theorem ComputedColumn.lt_length_of_read {items : List Tree} {closed : Bool} {c : ComputedColumn}
    (h : ComputedColumn.read (.array items closed) = .ok c) : 1 < items.length := by
  refine Shape.lt_length_of_read_array (P := fun d => d.dataType = none) rfl ?_ ?_ h
  · simp only [shape, List.take_succ_cons, List.take_zero, List.forall_mem_singleton]
    exact keeps_field fun _ _ _ _ hd => hd
  · intro d hd
    simp [shape, hd]

theorem MetadataColumn.lt_length_of_read {items : List Tree} {closed : Bool} {c : MetadataColumn}
    (h : MetadataColumn.read (.array items closed) = .ok c) : 1 < items.length := by
  refine Shape.lt_length_of_read_array (P := fun d => d.dataType = none) rfl ?_ ?_ h
  · simp only [shape, List.take_succ_cons, List.take_zero, List.forall_mem_singleton]
    exact keeps_field fun _ _ _ _ hd => hd
  · intro d hd
    simp [shape, hd]

namespace NonPhysicalColumn

/-- What reads as a column of some kind has said its kind before. -/
theorem split?_of_read {numbered : Bool} {depth : Nat} {t : Tree} {c : NonPhysicalColumn}
    (h : read numbered depth t = .ok c) : ∃ kind rest, split? numbered t = some (kind, rest) ∧
      ((∃ column, ComputedColumn.read rest = .ok column) ∨
        ∃ column, MetadataColumn.read rest = .ok column) := by
  unfold read at h
  split at h
  · split at h
    · rename_i rest hsplit
      obtain ⟨column, hcolumn, -⟩ := except_map_eq_ok_iff.mp h
      exact ⟨.computed, rest, hsplit, .inl ⟨column, hcolumn⟩⟩
    · rename_i rest hsplit
      obtain ⟨column, hcolumn, -⟩ := except_map_eq_ok_iff.mp h
      exact ⟨.metadata, rest, hsplit, .inr ⟨column, hcolumn⟩⟩
    · cases h
  · cases h

/-- An object that says its kind has a member for it. -/
theorem kind_mem_of_split? {numbered : Bool} {members : List (Option String × Tree)}
    {closed : Bool} {kind : Kind} {rest : Tree}
    (h : split? numbered (.object members closed) = some (kind, rest)) :
    ∃ value, (some "kind", value) ∈ members := by
  simp only [split?] at h
  split at h
  · rename_i key value hkinds
    have hmem : (key, value) ∈ members.filter (fun m => m.1 == some "kind") := by
      rw [hkinds]
      exact List.mem_singleton_self _
    obtain ⟨hmember, hkey⟩ := List.mem_filter.mp hmem
    exact ⟨value, beq_iff_eq.mp hkey ▸ hmember⟩
  · cases h

/-- An array that says its kind has it before everything else. -/
theorem split?_array {numbered : Bool} {items : List Tree} {closed : Bool} {kind : Kind}
    {rest : Tree} (h : split? numbered (.array items closed) = some (kind, rest)) :
    ∃ first others, items = first :: others ∧ rest = .array others closed := by
  cases items with
  | nil => cases h
  | cons first others =>
    obtain ⟨_, -, hrest⟩ := Option.bind_eq_some_iff.mp h
    cases hrest
    exact ⟨first, others, rfl, rfl⟩

/-- What reads as a column that is not physical does not read as a physical one. -/
theorem physical_read_ne_ok {numbered : Bool} {depth : Nat} {t : Tree} {c : NonPhysicalColumn}
    (h : read numbered depth t = .ok c) (p : PhysicalColumn) : PhysicalColumn.read t ≠ .ok p := by
  obtain ⟨kind, rest, hsplit, hrest⟩ := split?_of_read h
  cases t with
  | object members closed =>
    obtain ⟨value, hkind⟩ := kind_mem_of_split? hsplit
    exact PhysicalColumn.read_ne_ok_of_kind hkind p
  | array items closed =>
    obtain ⟨first, others, rfl, rfl⟩ := split?_array hsplit
    have hothers : 1 < others.length := by
      rcases hrest with ⟨column, hcolumn⟩ | ⟨column, hcolumn⟩
      · exact ComputedColumn.lt_length_of_read hcolumn
      · exact MetadataColumn.lt_length_of_read hcolumn
    intro hphysical
    have hfew := PhysicalColumn.length_le_of_read hphysical
    rw [List.length_cons] at hfew
    omega
  | _ => cases hsplit

end NonPhysicalColumn

namespace Column

/-- The readers for the kinds of columns, within containers of a depth. -/
def kinds (depth : Nat) : List (Reader Column) :=
  [fun t => (NonPhysicalColumn.read true depth t).map nonPhysical,
    fun t => (PhysicalColumn.read t).map physical]

theorem exclusive_kinds (depth : Nat) : Exclusive (kinds depth) := by
  refine List.pairwise_pair.mpr ?_
  intro t v w hv hw
  obtain ⟨c, hc, -⟩ := except_map_eq_ok_iff.mp hv
  obtain ⟨p, hp, -⟩ := except_map_eq_ok_iff.mp hw
  exact NonPhysicalColumn.physical_read_ne_ok hc p hp

theorem readFirst_kinds (depth : Nat) (t : Tree) :
    readFirst depth (kinds depth) t = read depth t := by
  unfold readFirst read
  split
  · cases hc : NonPhysicalColumn.read true depth t with
    | ok c => simp [kinds, hc, Except.map, Except.toOption, ofOption]
    | error e =>
      cases hp : PhysicalColumn.read t with
      | ok p => simp [kinds, hc, hp, Except.map, Except.toOption, ofOption]
      | error e' => simp [kinds, hc, hp, Except.map, Except.toOption, ofOption]
  · rfl

/-- An object that says its kind is read as a column of that kind or not at all. -/
theorem read_of_kind {members : List (Option String × Tree)} {closed : Bool} {value : Tree}
    (hkind : (some "kind", value) ∈ members) (depth : Nat) :
    (∃ c, NonPhysicalColumn.read true depth (.object members closed) = .ok c ∧
        read depth (.object members closed) = .ok (.nonPhysical c)) ∨
      read depth (.object members closed) = .error .malformed := by
  have hphysical : ∀ p, PhysicalColumn.read (.object members closed) ≠ .ok p :=
    PhysicalColumn.read_ne_ok_of_kind hkind
  unfold read
  split
  · cases hc : NonPhysicalColumn.read true depth (.object members closed) with
    | ok c => exact .inl ⟨c, rfl, rfl⟩
    | error e =>
      cases hp : PhysicalColumn.read (.object members closed) with
      | ok p => exact absurd hp (hphysical p)
      | error e' => exact .inr rfl
  · exact .inr rfl

/-- No value reads as a column of both kinds, so the kinds may be tried in any order. A value that
says its kind in a member reads as a column that is not physical, or not at all. -/
theorem reads_as_one_kind :
    (∀ t numbered depth c p, NonPhysicalColumn.read numbered depth t = .ok c →
      PhysicalColumn.read t ≠ .ok p) ∧
    (∀ depth order, order.Perm (kinds depth) → ∀ t, readFirst depth order t = read depth t) ∧
    ∀ members closed, (∃ value, (some "kind", value) ∈ members) → ∀ depth,
      (∃ c, NonPhysicalColumn.read true depth (.object members closed) = .ok c ∧
          read depth (.object members closed) = .ok (.nonPhysical c)) ∨
        read depth (.object members closed) = .error .malformed := by
  refine ⟨?_, ?_, ?_⟩
  · intro t numbered depth c p h
    exact NonPhysicalColumn.physical_read_ne_ok h p
  · intro depth order hp t
    rw [readFirst_perm (exclusive_kinds depth) hp, readFirst_kinds]
  · intro members closed hkind depth
    obtain ⟨value, hkind⟩ := hkind
    exact read_of_kind hkind depth

/-- A metadata column as short as an array of it can be. -/
def topicItems : Tree :=
  .array [.text (some "metadata"), .text (some "topic"), .text (some "STRING")] true

/-- A computed column whose expression is misspelled, beside all that a physical column needs. -/
def misspelledTotal : List (Option String × Tree) :=
  [(some "kind", .text (some "computed")), (some "name", .text (some "total")),
    (some "data_type", .text (some "INT")), (some "expresion", .text (some "a + 1"))]

theorem reads_as_one_kind_misspelled :
    (NonPhysicalColumn.read true 1 topicItems =
        .ok (.metadata (.plain "topic" ⟨.string, true⟩ false)) ∧
      ∀ p, PhysicalColumn.read topicItems ≠ .ok p) ∧
    ((kinds 1).reverse.Perm (kinds 1) ∧
      readFirst 1 (kinds 1).reverse topicItems = read 1 topicItems) ∧
    (∃ value, (some "kind", value) ∈ misspelledTotal) ∧
      read 1 (.object misspelledTotal true) = .error .malformed := by
  obtain ⟨hphysical, horder, hkind⟩ := reads_as_one_kind
  have htopic : NonPhysicalColumn.read true 1 topicItems =
      .ok (.metadata (.plain "topic" ⟨.string, true⟩ false)) := by decide +kernel
  have hreversed : (kinds 1).reverse.Perm (kinds 1) := List.reverse_perm _
  have hsaid : ∃ value, (some "kind", value) ∈ misspelledTotal := ⟨_, List.mem_cons_self⟩
  have hrefused : NonPhysicalColumn.read true 1 (.object misspelledTotal true) =
      .error .malformed := by decide +kernel
  refine ⟨⟨htopic, fun p => hphysical _ _ _ _ p htopic⟩,
    ⟨hreversed, horder 1 _ hreversed topicItems⟩, hsaid, ?_⟩
  rcases hkind misspelledTotal true hsaid 1 with ⟨c, hc, -⟩ | herror
  · rw [hrefused] at hc
    cases hc
  · exact herror

end Column

end FlatSchema
