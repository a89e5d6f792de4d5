import FlatSchema.Proofs.Catalog.Simulation

namespace FlatSchema

namespace Catalog

open Backend

variable {σ : Type} [Backend σ]

/-- What storage in a sound state owes to its tables: to keep what is written for one, and to leave
what is read of the others alone. -/
structure KeepsApart (Sound : σ → Prop) : Prop where
  sound_written : ∀ (s : σ) id stored, Sound s → Sound (writeStored s id stored).2
  sound_removed : ∀ (s : σ) id, Sound s → Sound (removeStored s id).2
  sound_reopened : ∀ s : σ, Sound s → Sound (reopen s)
  read_written : ∀ (s : σ) id stored, Sound s → id.Fits → stored.Canonical →
    (writeStored s id stored).1 = .ok () ∧
      readStored (writeStored s id stored).2 id = .ok (some stored)
  read_written_other : ∀ (s : σ) id stored other, other ≠ id →
    readStored (writeStored s id stored).2 other = readStored s other
  read_removed_other : ∀ (s : σ) id other, other ≠ id →
    readStored (removeStored s id).2 other = readStored s other
  read_reopened : ∀ (s : σ) id, readStored (reopen s) id = readStored s id

/-- The states that operations lead to from a start. -/
def Reaches (start s : σ) : Prop := ∃ ops, (run start ops).2 = s

/-- Operations that are not meant to take away or replace what is stored for a table. -/
def Operation.Spares (id : Identifier) : Operation → Prop
  | drop other _ => other ≠ id
  | writeStored other _ => other ≠ id
  | removeStored other => other ≠ id
  | _ => True

/-- What an operation can make of a state. A flat form is written where one is given, or else where
none has been. -/
inductive Change (s : σ) (op : Operation) : σ → Prop where
  | unchanged : Change s op s
  | written {id : Identifier} {stored : StoredTable}
      (free : op = .writeStored id stored ∨ readStored s id = .ok none) :
      Change s op (writeStored s id stored).2
  | removed {id : Identifier} (asked : op = .removeStored id ∨ ∃ ignore, op = .drop id ignore) :
      Change s op (removeStored s id).2
  | reopened : Change s op (reopen s)

/-- Creating a table leaves everything as it is, or comes down to writing a flat form where none has
been. -/
theorem create_cases (s : σ) (id : Identifier) (table : CatalogTable) (ignoreIfExists : Bool) :
    (∃ answer, create s id table ignoreIfExists = (answer, s)) ∨
      readStored s id = .ok none ∧
        ∃ stored, create s id table ignoreIfExists = writeStored s id stored := by
  unfold create
  split
  · exact .inl ⟨_, rfl⟩
  · exact .inl ⟨_, rfl⟩
  · rename_i hread
    split
    · exact .inl ⟨_, rfl⟩
    · exact .inr ⟨hread, _, rfl⟩

theorem change_create (s : σ) (id : Identifier) (table : CatalogTable) (ignoreIfExists : Bool) :
    Change s (.create id table ignoreIfExists) (create s id table ignoreIfExists).2 := by
  rcases create_cases s id table ignoreIfExists with ⟨answer, hcreate⟩ | ⟨hread, stored, hcreate⟩
  · rw [hcreate]
    exact .unchanged
  · rw [hcreate]
    exact .written (.inr hread)

theorem drop_snd (s : σ) (id : Identifier) (ignoreIfMissing : Bool) :
    (drop s id ignoreIfMissing).2 = (removeStored s id).2 := by
  unfold drop
  rcases removeStored s id with ⟨_ | _, s'⟩ <;> rfl

theorem change_step (s : σ) (op : Operation) : Change s op (step s op).2 := by
  cases op with
  | create id table ignoreIfExists => exact change_create s id table ignoreIfExists
  | drop id ignoreIfMissing =>
    have hremoved : Change s (.drop id ignoreIfMissing) (removeStored s id).2 :=
      .removed (.inr ⟨ignoreIfMissing, rfl⟩)
    rwa [← drop_snd s id ignoreIfMissing] at hremoved
  | writeStored id stored => exact .written (.inl rfl)
  | removeStored id => exact .removed (.inl rfl)
  | reopen => exact .reopened
  | get id | «exists» id | list database | readStored id => exact .unchanged

namespace KeepsApart

variable {Sound : σ → Prop} {s s' : σ} {id : Identifier} {stored : StoredTable}

theorem sound_change (laws : KeepsApart Sound) {op : Operation} (h : Change s op s')
    (hs : Sound s) : Sound s' := by
  cases h with
  | unchanged => exact hs
  | written _ => exact laws.sound_written s _ _ hs
  | removed _ => exact laws.sound_removed s _ hs
  | reopened => exact laws.sound_reopened s hs

/-- An operation that spares a table leaves its flat form as it is. -/
theorem read_change (laws : KeepsApart Sound) {op : Operation} (h : Change s op s')
    (hop : op.Spares id) (hread : readStored s id = .ok (some stored)) :
    readStored s' id = .ok (some stored) := by
  cases h with
  | unchanged => exact hread
  | @written other written free =>
    have hne : id ≠ other := by
      rintro rfl
      rcases free with rfl | hnone
      · exact hop rfl
      · rw [hread] at hnone
        cases hnone
    rw [laws.read_written_other s other written id hne, hread]
  | @removed other asked =>
    have hne : id ≠ other := by
      rintro rfl
      rcases asked with rfl | ⟨ignore, rfl⟩
      · exact hop rfl
      · exact hop rfl
    rw [laws.read_removed_other s other id hne, hread]
  | reopened => rw [laws.read_reopened s id, hread]

theorem sound_run (laws : KeepsApart Sound) (hs : Sound s) (ops : List Operation) :
    Sound (run s ops).2 := by
  induction ops generalizing s with
  | nil => exact hs
  | cons op ops ih => exact ih (laws.sound_change (change_step s op) hs)

theorem sound_of_reaches (laws : KeepsApart Sound) (hs : Sound s) (h : Reaches s s') :
    Sound s' := by
  obtain ⟨ops, rfl⟩ := h
  exact laws.sound_run hs ops

/-- Operations that spare a table leave its flat form as it is, however many there are. -/
theorem read_run (laws : KeepsApart Sound) {ops : List Operation}
    (hops : ∀ op ∈ ops, op.Spares id) (hread : readStored s id = .ok (some stored)) :
    readStored (run s ops).2 id = .ok (some stored) := by
  induction ops generalizing s with
  | nil => exact hread
  | cons op ops ih =>
    obtain ⟨hop, hops⟩ := List.forall_mem_cons.mp hops
    exact ih hops (laws.read_change (change_step s op) hop hread)

/-- Where no table is, one is created, and it is there as long as it is spared. -/
theorem get_run_create (laws : KeepsApart Sound) (hs : Sound s)
    (hnone : readStored s id = .ok none) (hfits : id.Fits) {table : CatalogTable}
    (ht : table.Canonical) (ignoreIfExists : Bool) {later : List Operation}
    (hlater : ∀ op ∈ later, op.Spares id) :
    ∃ s', create s id table ignoreIfExists = (.ok (), s') ∧
      get (run s' later).2 id = .ok { table with options := table.options.user } := by
  obtain ⟨stored, hstored, hcanonical, hrestore⟩ := CatalogTable.Canonical.flattens ht
  have hcreate : create s id table ignoreIfExists = writeStored s id stored := by
    simp only [create, hnone, hstored]
  obtain ⟨hok, hread⟩ := laws.read_written s id stored hs hfits hcanonical
  refine ⟨(writeStored s id stored).2, ?_, ?_⟩
  · rw [hcreate, ← hok]
  · rw [get, laws.read_run hlater hread]
    simp only [hrestore]
    rfl

end KeepsApart

end Catalog

open Catalog

namespace MemoryCatalog

theorem keepsApart : KeepsApart (fun _ : MemoryCatalog => True) where
  sound_written _ _ _ _ := trivial
  sound_removed _ _ _ := trivial
  sound_reopened _ _ := trivial
  read_written m id stored _ _ _ := by
    refine ⟨rfl, ?_⟩
    rw [readStored_eq, get?_writeStored, if_pos rfl]
  read_written_other m id stored other hne := by
    rw [readStored_eq, readStored_eq, get?_writeStored, if_neg hne]
  read_removed_other m id other hne := by
    rw [readStored_eq, readStored_eq, get?_removeStored, if_neg hne]
  read_reopened _ _ := rfl

end MemoryCatalog

namespace FileSystemCatalog

/-- There are files only where flat forms are kept, and directories only on the way to them. -/
structure Shelved (c : FileSystemCatalog) : Prop where
  file : ∀ path contents, c.warehouse.get? path = some (.file contents) →
    ∃ id, path = schemaPath id
  directory : ∀ path, c.warehouse.get? path = some .directory →
    ∃ id, Path.OnWay [] (tablePath id) path

theorem shelved_empty : Shelved ⟨.empty⟩ where
  file _ _ h := by cases h
  directory _ h := by cases h

namespace Shelved

variable {c : FileSystemCatalog}

theorem writeStored (h : Shelved c) (id : Identifier) (stored : StoredTable) :
    Shelved (c.writeStored id stored).2 where
  file path contents hget := by
    rcases c.get?_writeStored id stored path with hsame | ⟨_, _, hmade⟩ | ⟨hpath, _⟩
    · exact h.file path contents (hsame.symm.trans hget)
    · rw [hmade] at hget
      cases hget
    · exact ⟨id, hpath⟩
  directory path hget := by
    rcases c.get?_writeStored id stored path with hsame | ⟨hon, _⟩ | ⟨_, _, hfile⟩
    · exact h.directory path (hsame.symm.trans hget)
    · exact ⟨id, hon⟩
    · rw [hfile] at hget
      cases hget

theorem removeStored (h : Shelved c) (id : Identifier) : Shelved (c.removeStored id).2 := by
  have hless : ∀ path entry, (c.removeStored id).2.warehouse.get? path = some entry →
      c.warehouse.get? path = some entry := by
    intro path entry hget
    rcases c.get?_removeStored id path with hsame | ⟨_, hnone⟩
    · exact hsame.symm.trans hget
    · rw [hnone] at hget
      cases hget
  exact ⟨fun path contents hget => h.file path contents (hless path _ hget),
    fun path hget => h.directory path (hless path _ hget)⟩

/-- On shelves nothing is in the way of a flat form. -/
theorem read_written (h : Shelved c) {id : Identifier} (hfits : id.Fits) {stored : StoredTable}
    (hs : stored.Canonical) :
    (c.writeStored id stored).1 = .ok () ∧
      (c.writeStored id stored).2.readStored id = .ok (some stored) := by
  have hway : ∀ path contents, Path.OnWay [] (tablePath id) path →
      c.warehouse.get? path ≠ some (.file contents) :=
    fun path contents hon => ne_file_of_onWay h.file hon contents
  have hfree : c.warehouse.get? (schemaPath id) ≠ some .directory := by
    intro hget
    obtain ⟨other, hon⟩ := h.directory (schemaPath id) hget
    exact not_onWay_schemaPath other id hon
  obtain ⟨w, hwrite, hget⟩ := writeStored_eq_ok hfits hway hfree stored
  rw [hwrite]
  exact ⟨rfl, readStored_of_file ((hget (schemaPath id)).trans (if_pos rfl)) hs⟩

end Shelved

theorem keepsApart : KeepsApart Shelved where
  sound_written _ id stored h := h.writeStored id stored
  sound_removed _ id h := h.removeStored id
  sound_reopened _ h := h
  read_written _ _ _ h hfits hs := h.read_written hfits hs
  read_written_other c id stored other hne := by
    apply readStored_congr
    rcases c.get?_writeStored id stored (schemaPath other) with hsame | ⟨hon, _⟩ | ⟨hpath, _⟩
    · exact hsame
    · exact absurd hon (not_onWay_schemaPath id other)
    · exact absurd (schemaPath_inj.mp hpath) hne
  read_removed_other c id other hne := by
    apply readStored_congr
    rcases c.get?_removeStored id (schemaPath other) with hsame | ⟨hinside, _⟩
    · exact hsame
    · exact absurd (tablePath_prefix_schemaPath.mp hinside) hne
  read_reopened _ _ := rfl

end FileSystemCatalog

namespace Catalog

/-- In either backend a table is created where none is, and is got back, but for its options under
reserved keys, after all operations that spare it. -/
theorem get_of_created {id : Identifier} (hfits : id.Fits) {table : CatalogTable}
    (ht : table.Canonical) (ignoreIfExists : Bool) {later : List Operation}
    (hlater : ∀ op ∈ later, op.Spares id) :
    (∀ m, Reaches MemoryCatalog.empty m → Backend.readStored m id = .ok none →
      ∃ m', create m id table ignoreIfExists = (.ok (), m') ∧
        get (run m' later).2 id = .ok { table with options := table.options.user }) ∧
    ∀ c, Reaches (FileSystemCatalog.mk .empty) c → Backend.readStored c id = .ok none →
      ∃ c', create c id table ignoreIfExists = (.ok (), c') ∧
        get (run c' later).2 id = .ok { table with options := table.options.user } := by
  constructor
  · intro m _ hnone
    exact MemoryCatalog.keepsApart.get_run_create trivial hnone hfits ht ignoreIfExists hlater
  · intro c hreaches hnone
    have hshelved := FileSystemCatalog.keepsApart.sound_of_reaches
      FileSystemCatalog.shelved_empty hreaches
    exact FileSystemCatalog.keepsApart.get_run_create hshelved hnone hfits ht ignoreIfExists hlater

/-- Another table of the same database. -/
def customersId : Identifier := { ordersId with table := "customers", isName_table := by decide }

/-- Orders have been there and are gone. -/
def ordersDropped : List Operation :=
  [.create ordersId CatalogTable.ordersTable false, .drop ordersId false]

/-- Orders are created again, once with leave to do nothing and once without, while customers come
and go and the catalog is opened again. -/
def ordersSpared : List Operation :=
  [.create ordersId CatalogTable.ordersTable true, .create ordersId CatalogTable.ordersTable false,
    .create customersId CatalogTable.ordersTable false, .reopen, .drop customersId false]

theorem get_of_created_orders : ordersId.Fits ∧ CatalogTable.ordersTable.Canonical ∧
    (∀ op ∈ ordersSpared, op.Spares ordersId) ∧
    (∃ m, Reaches MemoryCatalog.empty m ∧ Backend.readStored m ordersId = .ok none ∧
      ∃ m', create m ordersId CatalogTable.ordersTable false = (.ok (), m') ∧
        get (run m' ordersSpared).2 ordersId = .ok { CatalogTable.ordersTable with
          options := CatalogTable.ordersTable.options.user }) ∧
    ∃ c, Reaches (FileSystemCatalog.mk .empty) c ∧ Backend.readStored c ordersId = .ok none ∧
      ∃ c', create c ordersId CatalogTable.ordersTable false = (.ok (), c') ∧
        get (run c' ordersSpared).2 ordersId = .ok { CatalogTable.ordersTable with
          options := CatalogTable.ordersTable.options.user } := by
  have hfits : ordersId.Fits := by decide
  have ht : CatalogTable.ordersTable.Canonical := ⟨by decide, by decide⟩
  have hspared : ∀ op ∈ ordersSpared, op.Spares ordersId := by
    simp only [ordersSpared, List.forall_mem_cons, Operation.Spares, List.not_mem_nil,
      false_implies, implies_true, and_true, true_and]
    decide
  obtain ⟨hmemory, hfiles⟩ := get_of_created hfits ht false hspared
  have hm : Reaches MemoryCatalog.empty (run MemoryCatalog.empty ordersDropped).2 := ⟨_, rfl⟩
  have hmnone : Backend.readStored (run MemoryCatalog.empty ordersDropped).2 ordersId =
      .ok none := by decide +kernel
  have hc : Reaches (FileSystemCatalog.mk .empty)
      (run (FileSystemCatalog.mk .empty) ordersDropped).2 := ⟨_, rfl⟩
  have hcnone : Backend.readStored (run (FileSystemCatalog.mk .empty) ordersDropped).2 ordersId =
      .ok none := by decide +kernel
  exact ⟨hfits, ht, hspared, ⟨_, hm, hmnone, hmemory _ hm hmnone⟩,
    ⟨_, hc, hcnone, hfiles _ hc hcnone⟩⟩

end Catalog

end FlatSchema
