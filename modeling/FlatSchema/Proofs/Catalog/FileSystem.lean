import FlatSchema.Catalog.FileSystem
import FlatSchema.Proofs.Catalog.Warehouse
import FlatSchema.Proofs.Form.Table

namespace FlatSchema

theorem Identifier.eq_iff {a b : Identifier} :
    a = b ↔ a.database = b.database ∧ a.table = b.table := by
  cases a
  cases b
  simp

namespace FileSystemCatalog

theorem databaseName_inj {a b : String} : databaseName a = databaseName b ↔ a = b :=
  String.append_left_inj ".db"

@[simp] theorem tablePath_inj {a b : Identifier} : tablePath a = tablePath b ↔ a = b := by
  constructor
  · intro h
    obtain ⟨hd, ht⟩ := List.cons_eq_cons.mp h
    exact Identifier.eq_iff.mpr ⟨databaseName_inj.mp hd, (List.cons_eq_cons.mp ht).1⟩
  · intro h
    obtain rfl := h
    rfl

@[simp] theorem schemaPath_inj {a b : Identifier} : schemaPath a = schemaPath b ↔ a = b := by
  rw [schemaPath, schemaPath, List.append_left_inj, tablePath_inj]

@[simp] theorem schemaPath_ne_tablePath (a b : Identifier) : schemaPath a ≠ tablePath b := by
  simp [schemaPath, tablePath]

@[simp] theorem tablePath_prefix_tablePath {a b : Identifier} :
    tablePath a <+: tablePath b ↔ b = a := by
  constructor
  · intro h
    exact (tablePath_inj.mp (h.eq_of_length rfl)).symm
  · intro h
    obtain rfl := h
    exact List.prefix_rfl

@[simp] theorem tablePath_prefix_schemaPath {a b : Identifier} :
    tablePath a <+: schemaPath b ↔ b = a := by
  constructor
  · intro h
    have hb : tablePath b <+: schemaPath b := List.prefix_append _ _
    have hp := List.prefix_of_prefix_length_le h hb (Nat.le_refl 2)
    exact tablePath_prefix_tablePath.mp hp
  · intro h
    obtain rfl := h
    exact List.prefix_append _ _

/-- The way to a table's directory leads through the directory of its database. -/
theorem onWay_tablePath {id : Identifier} {path : Path} :
    Path.OnWay [] (tablePath id) path ↔
      path = [databaseName id.database] ∨ path = tablePath id := by
  have hfirst := @Path.onWay_iff [] path [id.table] (databaseName id.database)
  have hsecond := @Path.onWay_iff [databaseName id.database] path [] id.table
  have hend := Path.not_onWay_self [databaseName id.database, id.table] path
  simp only [List.nil_append, List.cons_append] at hfirst hsecond
  rw [tablePath, hfirst, hsecond]
  simp [hend]

theorem onWay_tablePath_tablePath {a b : Identifier} :
    Path.OnWay [] (tablePath a) (tablePath b) ↔ b = a := by
  rw [onWay_tablePath, tablePath_inj]
  simp [tablePath]

theorem not_onWay_schemaPath (a b : Identifier) :
    ¬Path.OnWay [] (tablePath a) (schemaPath b) := by
  rw [onWay_tablePath]
  simp [schemaPath, tablePath]

/-- Where files are kept as flat forms only, none is in the way of a table's directory. -/
theorem ne_file_of_onWay {w : Warehouse} {id : Identifier} {path : Path}
    (hfile : ∀ path contents, w.get? path = some (.file contents) →
      ∃ other, path = schemaPath other)
    (h : Path.OnWay [] (tablePath id) path) (contents : ByteArray) :
    w.get? path ≠ some (.file contents) := by
  intro hget
  obtain ⟨other, rfl⟩ := hfile path contents hget
  exact not_onWay_schemaPath id other h

/-- The file that a flat form is kept in. -/
def fileOf (stored : StoredTable) : Entry := .file (stored.toJson.render .pretty).toUTF8

/-- Where a file is in the place of a flat form, reading gives a table or fails. -/
theorem readStored_eq_none_iff {c : FileSystemCatalog} {id : Identifier} :
    c.readStored id = .ok none ↔
      ∀ contents, c.warehouse.get? (schemaPath id) ≠ some (.file contents) := by
  unfold readStored
  split
  · rename_i contents hfile
    simp only [hfile, Option.some.injEq, Entry.file.injEq, ne_eq, forall_eq', iff_false]
    split
    · split <;> simp
    · simp
  · rename_i hother
    exact iff_of_true rfl hother

theorem readStored_of_missing {c : FileSystemCatalog} {id : Identifier}
    (h : c.warehouse.get? (schemaPath id) = none) : c.readStored id = .ok none := by
  rw [readStored, h]

theorem readStored_of_file {c : FileSystemCatalog} {id : Identifier} {stored : StoredTable}
    (h : c.warehouse.get? (schemaPath id) = some (fileOf stored)) (hs : stored.Canonical) :
    c.readStored id = .ok (some stored) := by
  have htext : String.fromUTF8? (stored.toJson.render .pretty).toUTF8 =
      some (stored.toJson.render .pretty) := by
    rw [String.fromUTF8?, String.toUTF8_eq_toByteArray,
      dif_pos (stored.toJson.render .pretty).isValidUTF8]
    rfl
  rw [readStored, h, fileOf]
  simp only [htext, StoredTable.lawful.readDocument_render hs]

end FileSystemCatalog

open FileSystemCatalog in
/-- The names of a table's directories are short enough for a file system. -/
def Identifier.Fits (id : Identifier) : Prop :=
  ∀ name ∈ tablePath id, name.utf8ByteSize ≤ Warehouse.maxNameLength

instance (id : Identifier) : Decidable id.Fits := inferInstanceAs (Decidable (∀ _ ∈ _, _))

namespace FileSystemCatalog

/-- Where nothing is in the way, a flat form is written and the directories on the way to it are
made, and nothing else has changed. -/
theorem writeStored_eq_ok {c : FileSystemCatalog} {id : Identifier} (hfits : id.Fits)
    (hway : ∀ path contents, Path.OnWay [] (tablePath id) path →
      c.warehouse.get? path ≠ some (.file contents))
    (hfree : c.warehouse.get? (schemaPath id) ≠ some .directory) (stored : StoredTable) :
    ∃ w, c.writeStored id stored = (.ok (), ⟨w⟩) ∧ ∀ path, w.get? path =
      if path = schemaPath id then some (fileOf stored)
      else if Path.OnWay [] (tablePath id) path then some .directory
      else c.warehouse.get? path := by
  obtain ⟨made, hmade, hget⟩ :=
    @Warehouse.exists_makeDirectories c.warehouse [] (tablePath id) (.inl rfl) hway hfits
  rw [List.nil_append] at hget
  have htable : made.get? (tablePath id) = some .directory := by
    rw [hget, if_pos (onWay_tablePath_tablePath.mpr rfl)]
  have hschema : made.get? (schemaPath id) ≠ some .directory := by
    rwa [hget, if_neg (not_onWay_schemaPath id id)]
  have haccepts : made.Accepts (schemaPath id) :=
    Warehouse.accepts_append (.inr htable) hschema (by decide)
  obtain ⟨w, hput⟩ := Warehouse.exists_put? haccepts (fileOf stored)
  refine ⟨w, ?_, fun path => ?_⟩
  · simp only [writeStored, hmade]
    rw [← fileOf, hput]
  · rw [Warehouse.get?_put? hput, hget]

/-- Whatever comes of writing a flat form, only its file and the directories that were missing on
the way to it can have changed. -/
theorem get?_writeStored (c : FileSystemCatalog) (id : Identifier) (stored : StoredTable)
    (path : Path) :
    (c.writeStored id stored).2.warehouse.get? path = c.warehouse.get? path ∨
      Path.OnWay [] (tablePath id) path ∧ c.warehouse.get? path = none ∧
        (c.writeStored id stored).2.warehouse.get? path = some .directory ∨
      path = schemaPath id ∧ c.warehouse.get? path ≠ some .directory ∧
        (c.writeStored id stored).2.warehouse.get? path = some (fileOf stored) := by
  have hmade := c.warehouse.get?_makeDirectories [] (tablePath id) path
  rw [List.nil_append] at hmade
  unfold writeStored
  rw [← fileOf]
  rcases hdirectories : c.warehouse.makeDirectories [] (tablePath id) with ⟨_ | _, made⟩
  all_goals
    rw [hdirectories] at hmade
    dsimp only at hmade ⊢
  · exact hmade.imp_right .inl
  · cases hput : made.put? (schemaPath id) (fileOf stored) with
    | none => exact hmade.imp_right .inl
    | some w =>
      have hget := Warehouse.get?_put? hput path
      by_cases hpath : path = schemaPath id
      · rw [if_pos hpath] at hget
        have hfree := Warehouse.ne_directory_of_put? hput
        rcases hmade with hsame | ⟨hon, _⟩
        · rw [← hpath, hsame] at hfree
          exact .inr (.inr ⟨hpath, hfree, hget⟩)
        · exact absurd (hpath ▸ hon) (not_onWay_schemaPath id id)
      · rw [if_neg hpath] at hget
        rw [← hget] at hmade
        exact hmade.imp_right .inl

/-- If the file of a flat form is refused though its directory has been made or was there, then it
was there, because another directory is in the place of the file. -/
theorem get?_tablePath_of_put?_eq_none {w made : Warehouse} {id : Identifier} {entry : Entry}
    (hmade : w.makeDirectories [] (tablePath id) = (true, made))
    (hput : made.put? (schemaPath id) entry = none) :
    w.get? (tablePath id) = some .directory := by
  have htable : made.get? (tablePath id) = some .directory :=
    Warehouse.get?_goal_of_makeDirectories hmade (by simp [tablePath])
  have hschema : made.get? (schemaPath id) = some .directory := by
    by_contra hfree
    apply Warehouse.not_accepts_of_put?_eq_none hput
    exact Warehouse.accepts_append (.inr htable) hfree (by decide)
  have hbefore : w.get? (schemaPath id) = some .directory := by
    rcases w.get?_makeDirectories [] (tablePath id) (schemaPath id) with hsame | ⟨hon, _⟩
    · rw [hmade] at hsame
      exact hsame.symm.trans hschema
    · exact absurd hon (not_onWay_schemaPath id id)
  have hparent := (w.housed _ _ hbefore).2
  exact hparent.resolve_left (by simp [schemaPath, tablePath])

/-- If a flat form cannot be written, a directory for its database may have been made, but nothing
else has changed. -/
theorem get?_of_writeStored_eq_error {c : FileSystemCatalog} {id : Identifier}
    {stored : StoredTable} {e : CatalogError} (h : (c.writeStored id stored).1 = .error e)
    {path : Path} (hpath : path ≠ [databaseName id.database]) :
    (c.writeStored id stored).2.warehouse.get? path = c.warehouse.get? path := by
  have hmade := c.warehouse.get?_makeDirectories [] (tablePath id) path
  rw [List.nil_append, onWay_tablePath] at hmade
  unfold writeStored at h ⊢
  rcases hdirectories : c.warehouse.makeDirectories [] (tablePath id) with ⟨_ | _, made⟩
  all_goals
    rw [hdirectories] at hmade h
    dsimp only at hmade h ⊢
  · rcases hmade with hsame | ⟨rfl | rfl, _⟩
    · exact hsame
    · exact absurd rfl hpath
    · exact Warehouse.get?_goal_of_not_makeDirectories hdirectories
  · cases hput : made.put? (schemaPath id) (.file (stored.toJson.render .pretty).toUTF8) with
    | some w =>
      rw [hput] at h
      cases h
    | none =>
      have hbefore := get?_tablePath_of_put?_eq_none hdirectories hput
      rcases hmade with hsame | ⟨rfl | rfl, hnone, _⟩
      · exact hsame
      · exact absurd rfl hpath
      · rw [hbefore] at hnone
        cases hnone

/-- If a flat form has been written, its file is there. -/
theorem get?_schemaPath_of_writeStored_eq_ok {c : FileSystemCatalog} {id : Identifier}
    {stored : StoredTable} (h : (c.writeStored id stored).1 = .ok ()) :
    (c.writeStored id stored).2.warehouse.get? (schemaPath id) = some (fileOf stored) := by
  unfold writeStored at h ⊢
  rw [← fileOf] at h ⊢
  rcases hdirectories : c.warehouse.makeDirectories [] (tablePath id) with ⟨_ | _, made⟩
  all_goals
    rw [hdirectories] at h
    dsimp only at h ⊢
  · cases h
  · cases hput : made.put? (schemaPath id) (fileOf stored) with
    | none =>
      rw [hput] at h
      cases h
    | some w => exact (Warehouse.get?_put? hput (schemaPath id)).trans (if_pos rfl)

theorem removeStored_of_directory {c : FileSystemCatalog} {id : Identifier}
    (h : c.warehouse.get? (tablePath id) = some .directory) :
    c.removeStored id = (.ok true, ⟨c.warehouse.remove (tablePath id)⟩) :=
  if_pos h

theorem removeStored_of_no_directory {c : FileSystemCatalog} {id : Identifier}
    (h : c.warehouse.get? (tablePath id) ≠ some .directory) :
    c.removeStored id = (.ok false, c) :=
  if_neg h

/-- Whatever comes of removing a table, nothing outside of its directory has changed. -/
theorem get?_removeStored (c : FileSystemCatalog) (id : Identifier) (path : Path) :
    (c.removeStored id).2.warehouse.get? path = c.warehouse.get? path ∨
      tablePath id <+: path ∧ (c.removeStored id).2.warehouse.get? path = none := by
  unfold removeStored
  split
  · rw [Warehouse.get?_remove]
    by_cases h : tablePath id <+: path
    · exact .inr ⟨h, if_pos h⟩
    · exact .inl (if_neg h)
  · exact .inl rfl

/-- Reading looks at the file of the table alone. -/
theorem readStored_congr {c c' : FileSystemCatalog} {id : Identifier}
    (h : c'.warehouse.get? (schemaPath id) = c.warehouse.get? (schemaPath id)) :
    c'.readStored id = c.readStored id := by
  rw [readStored, readStored, h]

/-- The tables of a database whose flat forms are there. -/
def tables (c : FileSystemCatalog) (database : String) : List String :=
  c.warehouse.entries.entries.filterMap (tableOf? database)

theorem tableOf?_eq_some_iff {database name : String} {path : Path} {entry : Entry} :
    tableOf? database (path, entry) = some name ↔
      path = [databaseName database, name, schemaFile] ∧ ∃ contents, entry = .file contents := by
  constructor
  · intro h
    unfold tableOf? at h
    split at h
    · rename_i directory other file contents heq
      obtain ⟨rfl, rfl⟩ := Prod.mk.inj heq
      split at h
      · rename_i hp
        obtain ⟨rfl, rfl⟩ := hp
        cases h
        exact ⟨rfl, contents, rfl⟩
      · cases h
    · cases h
  · intro h
    obtain ⟨rfl, contents, rfl⟩ := h
    simp [tableOf?]

theorem mem_tables {c : FileSystemCatalog} {database name : String} :
    name ∈ c.tables database ↔ ∃ contents,
      c.warehouse.get? [databaseName database, name, schemaFile] = some (.file contents) := by
  rw [tables, List.mem_filterMap]
  constructor
  · intro h
    obtain ⟨⟨path, entry⟩, hm, ht⟩ := h
    obtain ⟨rfl, contents, rfl⟩ := tableOf?_eq_some_iff.mp ht
    exact ⟨contents, SortedMap.get?_eq_some_iff.mpr hm⟩
  · intro h
    obtain ⟨contents, hget⟩ := h
    exact ⟨_, SortedMap.get?_eq_some_iff.mp hget, tableOf?_eq_some_iff.mpr ⟨rfl, contents, rfl⟩⟩

/-- Entries come in the order of their paths, and so do the tables of a database. -/
theorem ascending_tables (c : FileSystemCatalog) (database : String) :
    (c.tables database).Pairwise (fun a b => compare a b = .lt) := by
  refine c.warehouse.entries.ascending.filterMap _ ?_
  rintro ⟨path, entry⟩ ⟨path', entry'⟩ hlt name hn name' hn'
  obtain ⟨rfl, -⟩ := tableOf?_eq_some_iff.mp hn
  obtain ⟨rfl, -⟩ := tableOf?_eq_some_iff.mp hn'
  simpa [Std.ReflCmp.compare_self] using hlt

end FileSystemCatalog

end FlatSchema
