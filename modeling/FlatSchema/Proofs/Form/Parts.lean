import FlatSchema.Form.Table
import FlatSchema.Proofs.Form.Alternatives
import FlatSchema.Proofs.Json.Parts
import FlatSchema.Proofs.SchemaOptions

namespace FlatSchema

open Json

namespace MetadataColumn

theorem nodup_fields : (shape.fields.map Field.name).Nodup := by simp [shape]

theorem component_name :
    shape.Component "name" 0 (fun t => (readText t).map some) Draft.name where
  nodup := nodup_fields
  here := ⟨_, rfl, rfl, sets_field_some fun _ _ => rfl⟩
  others := by simp [OnlySetBy, shape, keeps_component]

theorem component_dataType :
    shape.Component "data_type" 1 (fun t => (TypeDescriptor.read t).map some) Draft.dataType where
  nodup := nodup_fields
  here := ⟨_, rfl, rfl, sets_field_some fun _ _ => rfl⟩
  others := by simp [OnlySetBy, shape, keeps_component]

theorem component_key : shape.Component "metadata_key" 2 (readOptional readText) Draft.key where
  nodup := nodup_fields
  here := ⟨_, rfl, rfl, sets_field fun _ _ => rfl⟩
  others := by simp [OnlySetBy, shape, keeps_component]

theorem component_isVirtual : shape.Component "is_virtual" 3 readBool Draft.isVirtual where
  nodup := nodup_fields
  here := ⟨_, rfl, rfl, sets_field fun _ _ => rfl⟩
  others := by simp [OnlySetBy, shape, keeps_component]

end MetadataColumn

namespace NonPhysicalColumn

/-- What is left beside the kind has the parts of the whole, at places that are one less. -/
theorem part?_of_split? {numbered : Bool} {t rest : Tree} {kind : Kind} {name : String}
    (hname : name ≠ "kind") (h : split? numbered t = some (kind, rest)) (place : Nat) :
    rest.part? name place = t.part? name (place + 1) := by
  cases t with
  | object members closed =>
    have hrest : rest = .object (members.filter (fun m => m.1 != some "kind")) closed := by
      simp only [split?] at h
      split at h
      · obtain ⟨_, -, hrest⟩ := Option.bind_eq_some_iff.mp h
        cases hrest
        rfl
      · cases h
    rw [hrest, Tree.part?, Tree.part?, List.find?_filter]
    congr 2
    funext m
    by_cases hm : m.1 = some name <;> simp [hm, hname]
  | array items closed =>
    obtain ⟨first, others, rfl, rfl⟩ := split?_array h
    rw [Tree.part?, Tree.part?, List.getElem?_cons_succ]
  | _ => cases h

/-- A metadata column is read from what is left beside its kind. -/
theorem exists_split?_of_read {numbered : Bool} {depth : Nat} {t : Tree} {c : MetadataColumn}
    (h : read numbered depth t = .ok (.metadata c)) :
    ∃ rest, split? numbered t = some (.metadata, rest) ∧ MetadataColumn.read rest = .ok c := by
  unfold read at h
  split at h
  · split at h
    · obtain ⟨column, -, hcolumn⟩ := except_map_eq_ok_iff.mp h
      cases hcolumn
    · rename_i rest hsplit
      obtain ⟨column, hcolumn, ⟨⟩⟩ := except_map_eq_ok_iff.mp h
      exact ⟨rest, hsplit, hcolumn⟩
    · cases h
  · cases h

end NonPhysicalColumn

theorem Column.nonPhysical_of_read {depth : Nat} {t : Tree} {c : NonPhysicalColumn}
    (h : Column.read depth t = .ok (.nonPhysical c)) :
    NonPhysicalColumn.read true depth t = .ok c := by
  unfold Column.read at h
  split at h
  · split at h
    · cases h
      assumption
    · cases h
    · cases h
  · cases h

theorem TableSchema.component_columns (depth : Nat) : (shape depth).Component "columns" 0
    (fun t => (readList (Column.read (depth + 2)) t).map some) Draft.columns where
  nodup := by simp [shape]
  here := ⟨_, rfl, rfl, sets_field_some fun _ _ => rfl⟩
  others := by simp [OnlySetBy, shape, keeps_component]

/-- The columns of a schema are read from the items of a part of its document, one from each. -/
theorem TableSchema.exists_items_of_read {depth : Nat} {t : Tree} {s : TableSchema}
    (h : TableSchema.read depth t = .ok s) :
    ∃ items closed, t.part? "columns" 0 = some (.array items closed) ∧
      ∀ (i : Nat) c, s.columns[i]? = some c →
        ∃ item, items[i]? = some item ∧ Column.read (depth + 2) item = .ok c := by
  obtain ⟨draft, hdraft, h⟩ := except_bind_eq_ok_iff.mp h
  obtain rfl := SchemaDraft.draft_of_build (except_mapError_eq_ok_iff.mp h)
  obtain ⟨d, hd, hfinish⟩ := Shape.exists_draft hdraft
  have hcolumns := (component_columns depth).eq_of_draft hd
  simp only [shape, Option.bind_eq_bind, Option.bind_eq_some_iff] at hfinish
  obtain ⟨columns, hsome, hparts⟩ := hfinish
  obtain rfl : columns = s.columns := congrArg SchemaDraft.columns (Option.some.inj hparts)
  rw [hsome] at hcolumns
  obtain ⟨part, hpart, hlist⟩ := readPart_eq_ok_some_iff.mp hcolumns
  obtain ⟨items, closed, rfl, hitems⟩ := exists_items_of_readList hlist
  exact ⟨items, closed, hpart, hitems⟩

theorem CatalogTable.component_schema : shape.Component "schema" 0
    (fun t => (TableSchema.read 1 t).map some) Draft.schema where
  nodup := by simp [shape]
  here := ⟨_, rfl, rfl, sets_field_some fun _ _ => rfl⟩
  others := by simp [OnlySetBy, shape, keeps_component]

/-- The schema of a table is read from a part of the table's document. -/
theorem CatalogTable.exists_schema_of_read {t : Tree} {table : CatalogTable}
    (h : CatalogTable.read t = .ok table) :
    ∃ part, t.part? "schema" 0 = some part ∧ TableSchema.read 1 part = .ok table.schema := by
  obtain ⟨d, hd, hfinish⟩ := Shape.exists_draft h
  have hschema := component_schema.eq_of_draft hd
  simp only [shape, Option.bind_eq_bind, Option.bind_eq_some_iff] at hfinish
  obtain ⟨schema, hsome, ⟨⟩⟩ := hfinish
  rw [hsome] at hschema
  exact readPart_eq_ok_some_iff.mp hschema

end FlatSchema
