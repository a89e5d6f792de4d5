import FlatSchema.Form.Table
import FlatSchema.Proofs.Form.Column
import FlatSchema.Proofs.SchemaOptions

namespace FlatSchema

open Json

@[simp] theorem Options.read_toJson (options : Options) :
    readMap readText options.toJson.tree = .ok options := by
  have htree : options.toJson.tree =
      .object (options.entries.map (fun e => (some e.1, .text (some e.2)))) true := by
    rw [Options.toJson, tree, memberTrees_eq_map, List.map_map]
    rfl
  rw [htree, readMap, except_mapM_map, except_bind_ok, if_pos rfl, SortedMap.ofList_entries]
  exact fun _ _ => rfl

namespace TableSchema

structure Canonical (s : TableSchema) : Prop where
  columns : ∀ c ∈ s.columns, c.Canonical
  watermark : ∀ w ∈ s.watermark, w.Canonical

/-- What has been read of a schema has canonical types. -/
structure Draft.Canonical (d : Draft) : Prop where
  columns : ∀ columns ∈ d.columns, ∀ c ∈ columns, c.Canonical
  watermark : ∀ w ∈ d.watermark, w.Canonical

variable {depth : Nat}

theorem keeps_canonical (hdepth : depth + 2 < Tree.maxDepth) :
    ∀ f ∈ (shape depth).fields, f.Keeps Draft.Canonical := by
  simp only [shape, List.forall_mem_cons, List.not_mem_nil, false_implies, implies_true, and_true]
  refine ⟨keeps_field fun t columns ht d hd => ⟨?_, hd.watermark⟩,
    keeps_field fun t watermark ht d hd => ⟨hd.columns, ?_⟩,
    keeps_field fun t keys ht d hd => ⟨hd.columns, hd.watermark⟩⟩
  · intro _ hsome
    cases hsome
    exact forall_of_readList (Column.lawful hdepth).canonical_of_read ht
  · exact forall_of_readOptional Watermark.lawful.canonical_of_read ht

theorem lawful (hdepth : depth + 2 < Tree.maxDepth) :
    Lawful toJson (read depth) Canonical where
  read_tree s hs := by
    have hcolumns : readList (Column.read (depth + 2))
        (Json.array (s.columns.map Column.toJson)).tree = .ok s.columns :=
      readList_tree (fun c hc => (Column.lawful hdepth).read_tree c (hs.columns c hc))
    have hdraft : (shape depth).read s.toJson.tree = .ok s.draft := by
      refine Shape.read_object (d := ⟨some s.columns, s.watermark, s.primaryKey⟩) ?_ rfl
      cases hw : s.watermark with
      | none =>
        cases s.primaryKey <;>
          simp [shape, optionalMember, readMembers, except_bind_ok, Except.map, hcolumns,
            readList_texts]
      | some w =>
        have hwatermark := Watermark.lawful.read_tree w (hs.watermark w hw)
        cases s.primaryKey <;>
          simp [shape, optionalMember, readMembers, except_bind_ok, Except.map, hcolumns,
            readList_texts, hwatermark]
    rw [read, hdraft, except_bind_ok, SchemaDraft.build_draft]
    rfl
  canonical_of_read t s h := by
    obtain ⟨draft, hdraft, h⟩ := except_bind_eq_ok_iff.mp h
    obtain ⟨d, hd, hfinish⟩ := Shape.exists_draft_of_read ⟨by simp [shape], by simp [shape]⟩
      (keeps_canonical hdepth) hdraft
    have hs := SchemaDraft.draft_of_build (except_mapError_eq_ok_iff.mp h)
    simp only [shape, Option.bind_eq_bind, Option.bind_eq_some_iff] at hfinish
    obtain ⟨columns, hcolumns, hparts⟩ := hfinish
    rw [← Option.some.inj hparts, TableSchema.draft, SchemaDraft.mk.injEq] at hs
    obtain ⟨hc, hw, -⟩ := hs
    exact ⟨hc ▸ hd.columns columns hcolumns, hw ▸ hd.watermark⟩

end TableSchema

namespace StoredTable

def Canonical (s : StoredTable) : Prop := ∀ c ∈ s.fields, c.Canonical

instance (s : StoredTable) : Decidable s.Canonical := inferInstanceAs (Decidable (∀ _ ∈ _, _))

theorem keeps_canonical : ∀ f ∈ shape.fields,
    f.Keeps (fun d => ∀ fields ∈ d.fields, ∀ c ∈ fields, PhysicalColumn.Canonical c) := by
  simp only [shape, List.forall_mem_cons, List.not_mem_nil, false_implies, implies_true, and_true]
  refine ⟨keeps_field fun t fields ht _ _ => ?_, keeps_field fun _ _ _ _ hd => hd,
    keeps_field fun _ _ _ _ hd => hd, keeps_field fun _ _ _ _ hd => hd⟩
  intro _ hsome
  cases hsome
  exact forall_of_readList PhysicalColumn.lawful.canonical_of_read ht

theorem lawful : Lawful toJson read Canonical where
  read_tree s hs := by
    have hfields : readList PhysicalColumn.read
        (Json.array (s.fields.map PhysicalColumn.toJson)).tree = .ok s.fields :=
      readList_tree (fun c hc => PhysicalColumn.lawful.read_tree c (hs c hc))
    refine Shape.read_object (d := ⟨some s.fields, s.primaryKeys, s.options, s.comment⟩) ?_ rfl
    cases hcomment : s.comment <;>
      simp [shape, optionalMember, readMembers, except_bind_ok, Except.map, hfields,
        readList_texts]
  canonical_of_read t s h := by
    obtain ⟨d, hd, h⟩ := Shape.exists_draft_of_read (by simp [shape]) keeps_canonical h
    simp only [shape, Option.bind_eq_bind, Option.bind_eq_some_iff] at h
    obtain ⟨fields, hfields, ⟨⟩⟩ := h
    exact hd fields hfields

end StoredTable

namespace CatalogTable

def Canonical (t : CatalogTable) : Prop := t.schema.Canonical

theorem keeps_canonical : ∀ f ∈ shape.fields,
    f.Keeps (fun d => ∀ schema ∈ d.schema, TableSchema.Canonical schema) := by
  simp only [shape, List.forall_mem_cons, List.not_mem_nil, false_implies, implies_true, and_true]
  refine ⟨keeps_field fun t schema ht _ _ => ?_, keeps_field fun _ _ _ _ hd => hd,
    keeps_field fun _ _ _ _ hd => hd⟩
  intro _ hsome
  cases hsome
  exact (TableSchema.lawful (by decide)).canonical_of_read t schema ht

theorem lawful : Lawful toJson read Canonical where
  read_tree t ht := by
    have hschema : (TableSchema.read 1) t.schema.toJson.tree = .ok t.schema :=
      (TableSchema.lawful (by decide)).read_tree t.schema ht
    refine Shape.read_object (d := ⟨some t.schema, t.options, t.comment⟩) ?_ rfl
    cases hcomment : t.comment <;>
      simp [shape, optionalMember, readMembers, except_bind_ok, Except.map, hschema]
  canonical_of_read tree t h := by
    obtain ⟨d, hd, h⟩ := Shape.exists_draft_of_read (by simp [shape]) keeps_canonical h
    simp only [shape, Option.bind_eq_bind, Option.bind_eq_some_iff] at h
    obtain ⟨schema, hschema, ⟨⟩⟩ := h
    exact hd schema hschema

end CatalogTable

namespace ChangeRecord

def Canonical (r : ChangeRecord) : Prop := ∀ c ∈ r.fieldTypes, c.Canonical

theorem keeps_canonical : ∀ f ∈ shape.fields,
    f.Keeps (fun d => ∀ fields ∈ d.fieldTypes, ∀ c ∈ fields, PhysicalColumn.Canonical c) := by
  simp only [shape, List.forall_mem_cons, List.not_mem_nil, false_implies, implies_true, and_true]
  refine ⟨keeps_field fun t fields ht _ _ => ?_, keeps_field fun _ _ _ _ hd => hd⟩
  intro _ hsome
  cases hsome
  exact forall_of_readList PhysicalColumn.lawful.canonical_of_read ht

theorem lawful : Lawful toJson read Canonical where
  read_tree r hr := by
    have hfields : readList PhysicalColumn.read
        (Json.array (r.fieldTypes.map PhysicalColumn.toJson)).tree = .ok r.fieldTypes :=
      readList_tree (fun c hc => PhysicalColumn.lawful.read_tree c (hr c hc))
    refine Shape.read_object (d := ⟨some r.fieldTypes, r.primaryKeys⟩) ?_ rfl
    simp [shape, readMembers, except_bind_ok, Except.map, hfields, readList_texts]
  canonical_of_read t r h := by
    obtain ⟨d, hd, h⟩ := Shape.exists_draft_of_read (by simp [shape]) keeps_canonical h
    simp only [shape, Option.bind_eq_bind, Option.bind_eq_some_iff] at h
    obtain ⟨fields, hfields, ⟨⟩⟩ := h
    exact hd fields hfields

end ChangeRecord

/-- Every form round trips, on all values whose types are canonical. -/
theorem forms_roundTrip :
    RoundTrips TypeDescriptor.toJson TypeDescriptor.read TypeDescriptor.Canonical ∧
      RoundTrips PhysicalColumn.toJson PhysicalColumn.read PhysicalColumn.Canonical ∧
      RoundTrips ComputedColumn.toJson ComputedColumn.read ComputedColumn.Canonical ∧
      RoundTrips MetadataColumn.toJson MetadataColumn.read MetadataColumn.Canonical ∧
      RoundTrips NonPhysicalColumn.toJson (NonPhysicalColumn.read false 0)
        NonPhysicalColumn.Canonical ∧
      RoundTrips Column.toJson (Column.read 0) Column.Canonical ∧
      RoundTrips Watermark.toJson Watermark.read Watermark.Canonical ∧
      RoundTrips TableSchema.toJson (TableSchema.read 0) TableSchema.Canonical ∧
      RoundTrips StoredTable.toJson StoredTable.read StoredTable.Canonical ∧
      RoundTrips CatalogTable.toJson CatalogTable.read CatalogTable.Canonical ∧
      RoundTrips ChangeRecord.toJson ChangeRecord.read ChangeRecord.Canonical :=
  ⟨TypeDescriptor.lawful.roundTrips, PhysicalColumn.lawful.roundTrips,
    ComputedColumn.lawful.roundTrips, MetadataColumn.lawful.roundTrips,
    (NonPhysicalColumn.lawful false (by decide)).roundTrips,
    (Column.lawful (by decide)).roundTrips, Watermark.lawful.roundTrips,
    (TableSchema.lawful (by decide)).roundTrips, StoredTable.lawful.roundTrips,
    CatalogTable.lawful.roundTrips, ChangeRecord.lawful.roundTrips⟩

end FlatSchema
