import FlatSchema.Form.Column
import FlatSchema.Proofs.Json.Reading
import FlatSchema.Proofs.Records

namespace FlatSchema

open Json

namespace TypeDescriptor

theorem lawful : Lawful toJson read Canonical where
  read_tree t ht := by
    have hparse : ofText t.text = .ok t := ofText_eq_ok_iff.mpr (ofText?_text_of_canonical ht)
    rw [read, toJson, readText_tree, except_bind_ok, hparse]
    rfl
  canonical_of_read tree t h := by
    obtain ⟨text, -, h⟩ := except_bind_eq_ok_iff.mp h
    exact canonical_of_ofText? (ofText_eq_ok_iff.mp (except_mapError_eq_ok_iff.mp h))

/-- What is read into the type of a draft is canonical. -/
theorem canonical_of_mem_some {tree : Tree} {t : TypeDescriptor} (h : read tree = .ok t) :
    ∀ t' ∈ some t, t'.Canonical := by
  intro _ hsome
  cases hsome
  exact lawful.canonical_of_read tree t h

end TypeDescriptor

def PhysicalColumn.Canonical (c : PhysicalColumn) : Prop := c.dataType.Canonical

instance (c : PhysicalColumn) : Decidable c.Canonical :=
  inferInstanceAs (Decidable c.dataType.Canonical)

def ComputedColumn.Canonical (c : ComputedColumn) : Prop := c.dataType.Canonical

def MetadataColumn.Canonical (c : MetadataColumn) : Prop := c.dataType.Canonical

def Column.Canonical (c : Column) : Prop := c.dataType.Canonical

instance (c : Column) : Decidable c.Canonical := inferInstanceAs (Decidable c.dataType.Canonical)

namespace PhysicalColumn

theorem keeps_canonical : ∀ f ∈ shape.fields, f.Keeps (fun d => ∀ t ∈ d.dataType, t.Canonical) := by
  simp only [shape, List.forall_mem_cons, List.not_mem_nil, false_implies, implies_true, and_true]
  exact ⟨keeps_field fun _ _ _ _ hd => hd,
    keeps_field fun _ _ ht _ _ => TypeDescriptor.canonical_of_mem_some ht⟩

theorem lawful : Lawful toJson read Canonical where
  read_tree c hc := by
    have ht := TypeDescriptor.lawful.read_tree c.dataType hc
    refine Shape.read_object (d := ⟨some c.name, some c.dataType⟩) ?_ rfl
    simp [shape, readMembers, except_bind_ok, Except.map, ht]
  canonical_of_read t c h := by
    obtain ⟨d, hd, h⟩ := Shape.exists_draft_of_read (by simp [shape]) keeps_canonical h
    simp only [shape, Option.bind_eq_bind, Option.bind_eq_some_iff] at h
    obtain ⟨name, -, dataType, ht, ⟨⟩⟩ := h
    exact hd dataType ht

theorem isWhole_toJson {depth : Nat} (hdepth : depth < Tree.maxDepth) (c : PhysicalColumn) :
    c.toJson.tree.isWhole depth := by
  simp [toJson, TypeDescriptor.toJson, tree, Tree.isWhole, Tree.membersWhole, hdepth]

end PhysicalColumn

namespace ComputedColumn

theorem keeps_canonical : ∀ f ∈ shape.fields, f.Keeps (fun d => ∀ t ∈ d.dataType, t.Canonical) := by
  simp only [shape, List.forall_mem_cons, List.not_mem_nil, false_implies, implies_true, and_true]
  exact ⟨keeps_field fun _ _ _ _ hd => hd,
    keeps_field fun _ _ ht _ _ => TypeDescriptor.canonical_of_mem_some ht,
    keeps_field fun _ _ _ _ hd => hd⟩

theorem lawful : Lawful toJson read Canonical where
  read_tree c hc := by
    have ht := TypeDescriptor.lawful.read_tree c.dataType hc
    refine Shape.read_object (d := ⟨some c.name, some c.dataType, some c.expression⟩) ?_ rfl
    simp [shape, members, readMembers, except_bind_ok, Except.map, ht]
  canonical_of_read t c h := by
    obtain ⟨d, hd, h⟩ := Shape.exists_draft_of_read (by simp [shape]) keeps_canonical h
    simp only [shape, Option.bind_eq_bind, Option.bind_eq_some_iff] at h
    obtain ⟨name, -, dataType, ht, expression, -, ⟨⟩⟩ := h
    exact hd dataType ht

end ComputedColumn

namespace MetadataColumn

theorem plain_eq_self {c : MetadataColumn} (h : c.explicitAlias = none) :
    plain c.name c.dataType c.isVirtual = c := by
  obtain ⟨name, dataType, explicitAlias, isVirtual, hne⟩ := c
  cases h
  rfl

theorem withAlias_eq_self {c : MetadataColumn} {key : String} (h : c.explicitAlias = some key) :
    withAlias c.name c.dataType key c.isVirtual = c := by
  have hkey : c.metadataKey = key := by rw [metadataKey, h, Option.getD_some]
  rw [← hkey, withAlias_metadataKey]

theorem keeps_canonical : ∀ f ∈ shape.fields, f.Keeps (fun d => ∀ t ∈ d.dataType, t.Canonical) := by
  simp only [shape, List.forall_mem_cons, List.not_mem_nil, false_implies, implies_true, and_true]
  exact ⟨keeps_field fun _ _ _ _ hd => hd,
    keeps_field fun _ _ ht _ _ => TypeDescriptor.canonical_of_mem_some ht,
    keeps_field fun _ _ _ _ hd => hd, keeps_field fun _ _ _ _ hd => hd⟩

theorem lawful : Lawful toJson read Canonical where
  read_tree c hc := by
    have ht := TypeDescriptor.lawful.read_tree c.dataType hc
    -- An alias that is not written is read as none.
    cases hkey : c.explicitAlias with
    | none =>
      refine Shape.read_object (d := ⟨some c.name, some c.dataType, none, c.isVirtual⟩) ?_ ?_
      · simp [shape, members, readMembers, except_bind_ok, Except.map, ht, hkey]
      · exact congrArg some (plain_eq_self hkey)
    | some key =>
      refine Shape.read_object (d := ⟨some c.name, some c.dataType, some key, c.isVirtual⟩) ?_ ?_
      · simp [shape, members, readMembers, except_bind_ok, Except.map, ht, hkey]
      · exact congrArg some (withAlias_eq_self hkey)
  canonical_of_read t c h := by
    obtain ⟨d, hd, h⟩ := Shape.exists_draft_of_read (by simp [shape]) keeps_canonical h
    simp only [shape, Option.bind_eq_bind, Option.bind_eq_some_iff] at h
    obtain ⟨name, -, dataType, ht, h⟩ := h
    have hc : c.dataType = dataType := by
      cases hkey : d.key with
      | none =>
        rw [hkey] at h
        cases h
        rfl
      | some key =>
        rw [hkey] at h
        cases h
        exact dataType_withAlias name dataType key d.isVirtual
    rw [Canonical, hc]
    exact hd dataType ht

end MetadataColumn

namespace NonPhysicalColumn

/-- The kind is taken out of an object that says it once. -/
theorem split?_kind {numbered : Bool} {t : Tree} {kind : Kind} {closed : Bool}
    {members : List (Option String × Tree)} (ht : kind? numbered t = some kind)
    (hm : ∀ m ∈ members, m.1 ≠ some "kind") :
    split? numbered (.object ((some "kind", t) :: members) closed) =
      some (kind, .object members closed) := by
  have hkinds : members.filter (fun m => m.1 == some "kind") = [] := by
    simpa [List.filter_eq_nil_iff] using hm
  have hothers : members.filter (fun m => m.1 != some "kind") = members := by
    simpa [List.filter_eq_self] using hm
  simp [split?, hkinds, hothers, ht]

/-- A column that is written is whole wherever one more container fits. -/
theorem isWhole_toJson {depth : Nat} (hdepth : depth < Tree.maxDepth) (c : NonPhysicalColumn) :
    c.toJson.tree.isWhole depth := by
  cases c with
  | computed c =>
    simp [toJson, ComputedColumn.members, TypeDescriptor.toJson, tree, Tree.isWhole,
      Tree.membersWhole, hdepth]
  | metadata c =>
    cases hkey : c.explicitAlias <;>
      simp [toJson, MetadataColumn.members, TypeDescriptor.toJson, tree, Tree.isWhole,
        Tree.membersWhole, hdepth, hkey]

theorem lawful (numbered : Bool) {depth : Nat} (hdepth : depth < Tree.maxDepth) :
    Lawful toJson (read numbered depth) Canonical where
  read_tree c hc := by
    cases c with
    | computed c =>
      have hread := ComputedColumn.lawful.read_tree c hc
      have hsplit : split? numbered (toJson (computed c)).tree = some (.computed, c.toJson.tree) :=
        split?_kind rfl (by simp [ComputedColumn.members])
      rw [read, if_pos (isWhole_toJson hdepth _), hsplit]
      simp only [hread]
      rfl
    | metadata c =>
      have hread := MetadataColumn.lawful.read_tree c hc
      have hsplit : split? numbered (toJson (metadata c)).tree = some (.metadata, c.toJson.tree) :=
        split?_kind rfl (by cases hkey : c.explicitAlias <;> simp [MetadataColumn.members, hkey])
      rw [read, if_pos (isWhole_toJson hdepth _), hsplit]
      simp only [hread]
      rfl
  canonical_of_read t c h := by
    unfold read at h
    split at h
    · split at h
      · obtain ⟨column, hcolumn, rfl⟩ := except_map_eq_ok_iff.mp h
        exact ComputedColumn.lawful.canonical_of_read _ column hcolumn
      · obtain ⟨column, hcolumn, rfl⟩ := except_map_eq_ok_iff.mp h
        exact MetadataColumn.lawful.canonical_of_read _ column hcolumn
      · cases h
    · cases h

end NonPhysicalColumn

namespace Column

theorem lawful {depth : Nat} (hdepth : depth < Tree.maxDepth) :
    Lawful toJson (read depth) Canonical where
  read_tree c hc := by
    cases c with
    | nonPhysical c =>
      have hread := (NonPhysicalColumn.lawful true hdepth).read_tree c hc
      rw [toJson, read, if_pos (NonPhysicalColumn.isWhole_toJson hdepth c), hread]
    | physical c =>
      have hread := PhysicalColumn.lawful.read_tree c hc
      have hwhole := PhysicalColumn.isWhole_toJson hdepth c
      have hkind : NonPhysicalColumn.read true depth c.toJson.tree = .error .malformed := by
        rw [NonPhysicalColumn.read, if_pos hwhole]
        rfl
      rw [toJson, read, if_pos hwhole, hread, hkind]
  canonical_of_read t c h := by
    unfold read at h
    split at h
    · split at h
      · rename_i c' hc
        cases h
        exact (NonPhysicalColumn.lawful true hdepth).canonical_of_read t c' ‹_›
      · rename_i c' _ hc
        cases h
        exact PhysicalColumn.lawful.canonical_of_read t c' ‹_›
      · cases h
    · cases h

end Column

namespace Watermark

theorem keeps_canonical : ∀ f ∈ shape.fields, f.Keeps (fun d => ∀ t ∈ d.dataType, t.Canonical) := by
  simp only [shape, List.forall_mem_cons, List.not_mem_nil, false_implies, implies_true, and_true]
  exact ⟨keeps_field fun _ _ _ _ hd => hd, keeps_field fun _ _ _ _ hd => hd,
    keeps_field fun _ _ ht _ _ => TypeDescriptor.canonical_of_mem_some ht⟩

theorem lawful : Lawful toJson read Canonical where
  read_tree w hw := by
    have ht := TypeDescriptor.lawful.read_tree w.dataType hw
    refine Shape.read_object (d := ⟨some w.rowtime, some w.expression, some w.dataType⟩) ?_ rfl
    simp [shape, readMembers, except_bind_ok, Except.map, ht]
  canonical_of_read t w h := by
    obtain ⟨d, hd, h⟩ := Shape.exists_draft_of_read (by simp [shape]) keeps_canonical h
    simp only [shape, Option.bind_eq_bind, Option.bind_eq_some_iff] at h
    obtain ⟨rowtime, -, expression, -, dataType, ht, ⟨⟩⟩ := h
    exact hd dataType ht

end Watermark

end FlatSchema
