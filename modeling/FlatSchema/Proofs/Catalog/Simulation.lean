import FlatSchema.Catalog.Memory
import FlatSchema.Proofs.Catalog.FileSystem
import FlatSchema.Proofs.Form.Flattening
import Mathlib.Data.List.Sort

namespace FlatSchema

open FileSystemCatalog Catalog

/-- Lists in strictly ascending order are known by their members. -/
theorem eq_of_ascending {xs ys : List String} (hx : xs.Pairwise (fun a b => compare a b = .lt))
    (hy : ys.Pairwise (fun a b => compare a b = .lt)) (h : ∀ a, a ∈ xs ↔ a ∈ ys) : xs = ys := by
  have : Std.Antisymm (fun a b : String => compare a b = .lt) :=
    ⟨fun a b hab hba => by
      rw [Std.OrientedCmp.gt_of_lt hab] at hba
      cases hba⟩
  have : Std.Irrefl (fun a b : String => compare a b = .lt) := ⟨fun a haa => by simp at haa⟩
  exact hx.eq_of_mem_iff hy h

namespace MemoryCatalog

/-- Removing a table that is not there leaves a catalog in memory as it is. -/
theorem removeStored_of_missing {m : MemoryCatalog} {id : Identifier}
    (h : m.tables.get? id = none) : Backend.removeStored m id = (.ok false, m) := by
  simp only [Backend.removeStored, h, SortedMap.erase_of_get?_eq_none h, Option.isSome_none]

variable (m : MemoryCatalog) (id : Identifier)

theorem readStored_eq : Backend.readStored m id = .ok (m.tables.get? id) := rfl

theorem get?_writeStored (stored : StoredTable) (other : Identifier) :
    (Backend.writeStored m id stored).2.tables.get? other =
      if other = id then some stored else m.tables.get? other :=
  SortedMap.get?_insert m.tables id stored other

theorem get?_removeStored (other : Identifier) :
    (Backend.removeStored m id).2.tables.get? other =
      if other = id then none else m.tables.get? other :=
  SortedMap.get?_erase m.tables id other

theorem mem_tablesIn {database name : String} : name ∈ m.tablesIn database ↔
    ∃ id stored, m.tables.get? id = some stored ∧ id.database = database ∧ id.table = name := by
  simp [tablesIn, SortedMap.mem_keys_iff, and_assoc]

/-- Within one database the order of identifiers is that of the tables. -/
theorem ascending_tablesIn (database : String) :
    (m.tablesIn database).Pairwise (fun a b => compare a b = .lt) := by
  refine List.pairwise_map.mpr (List.pairwise_filter.mpr ?_)
  refine List.pairwise_map.mpr (m.tables.ascending.imp ?_)
  intro a b hlt ha hb
  simp only [decide_eq_true_eq] at ha hb
  rcases Identifier.compare_eq_lt_iff.mp hlt with hdatabase | ⟨_, htable⟩
  · simp [ha, hb] at hdatabase
  · exact htable

/-- A database that cannot be has no tables in memory. -/
theorem tablesIn_of_not_isName {database : String} (hd : ¬isName database) :
    m.tablesIn database = [] := by
  refine List.eq_nil_iff_forall_not_mem.mpr (fun name hn => ?_)
  obtain ⟨id, _, _, rfl, _⟩ := m.mem_tablesIn.mp hn
  exact hd id.isName_database

end MemoryCatalog

/-- A catalog in files holds just what a catalog in memory holds. -/
structure Mirrors (m : MemoryCatalog) (c : FileSystemCatalog) : Prop where
  canonical : ∀ id stored, m.tables.get? id = some stored → stored.Canonical
  schema : ∀ id, c.warehouse.get? (schemaPath id) = (m.tables.get? id).map fileOf
  table : ∀ id, c.warehouse.get? (tablePath id) = (m.tables.get? id).map (fun _ => .directory)
  file : ∀ path contents, c.warehouse.get? path = some (.file contents) →
    ∃ id, path = schemaPath id

namespace Mirrors

variable {m : MemoryCatalog} {c : FileSystemCatalog}

theorem empty : Mirrors .empty ⟨.empty⟩ where
  canonical _ _ h := by cases h
  schema _ := rfl
  table _ := rfl
  file _ _ h := by cases h

theorem readStored (h : Mirrors m c) (id : Identifier) :
    Backend.readStored c id = Backend.readStored m id := by
  have hschema := h.schema id
  rw [m.readStored_eq]
  cases hs : m.tables.get? id with
  | none => exact readStored_of_missing (by rw [hschema, hs]; rfl)
  | some stored =>
    exact readStored_of_file (by rw [hschema, hs]; rfl) (h.canonical id stored hs)

/-- If both catalogs change what they hold for one table in the same way, one still mirrors the
other. -/
theorem update (h : Mirrors m c) {id : Identifier} {o : Option StoredTable}
    {m' : MemoryCatalog} {c' : FileSystemCatalog} (ho : ∀ stored ∈ o, stored.Canonical)
    (hmemory : ∀ other, m'.tables.get? other = if other = id then o else m.tables.get? other)
    (hschema : ∀ other, c'.warehouse.get? (schemaPath other) =
      if other = id then o.map fileOf else c.warehouse.get? (schemaPath other))
    (htable : ∀ other, c'.warehouse.get? (tablePath other) =
      if other = id then o.map (fun _ => .directory) else c.warehouse.get? (tablePath other))
    (hfile : ∀ path contents, c'.warehouse.get? path = some (.file contents) →
      path = schemaPath id ∨ c.warehouse.get? path = some (.file contents)) : Mirrors m' c' where
  canonical other stored hs := by
    rw [hmemory] at hs
    split at hs
    · exact ho stored hs
    · exact h.canonical other stored hs
  schema other := by
    rw [hschema, hmemory, h.schema]
    split <;> rfl
  table other := by
    rw [htable, hmemory, h.table]
    split <;> rfl
  file path contents hp := by
    rcases hfile path contents hp with rfl | hp
    · exact ⟨id, rfl⟩
    · exact h.file path contents hp

theorem writeStored (h : Mirrors m c) {id : Identifier} (hfits : id.Fits) {stored : StoredTable}
    (hs : stored.Canonical) :
    (Backend.writeStored c id stored).1 = (Backend.writeStored m id stored).1 ∧
      Mirrors (Backend.writeStored m id stored).2 (Backend.writeStored c id stored).2 := by
  have hway : ∀ path contents, Path.OnWay [] (tablePath id) path →
      c.warehouse.get? path ≠ some (.file contents) :=
    fun path contents hp => ne_file_of_onWay h.file hp contents
  have hfree : c.warehouse.get? (schemaPath id) ≠ some .directory := by
    rw [h.schema id]
    cases m.tables.get? id <;> simp [fileOf]
  obtain ⟨w, hwrite, hget⟩ := writeStored_eq_ok hfits hway hfree stored
  have hresult : Backend.writeStored c id stored = (.ok (), ⟨w⟩) := hwrite
  rw [hresult]
  refine ⟨rfl, h.update (o := some stored) ?_ (m.get?_writeStored id stored) ?_ ?_ ?_⟩
  · intro _ hsome
    cases hsome
    exact hs
  · intro other
    simp only [hget, schemaPath_inj, if_neg (not_onWay_schemaPath id other), Option.map_some]
  · intro other
    rw [hget, if_neg (schemaPath_ne_tablePath id other).symm]
    simp only [onWay_tablePath_tablePath, Option.map_some]
  · intro path contents hp
    rw [hget] at hp
    split at hp
    · rename_i he
      exact .inl he
    · split at hp
      · cases hp
      · exact .inr hp

theorem removeStored (h : Mirrors m c) (id : Identifier) :
    (Backend.removeStored c id).1 = (Backend.removeStored m id).1 ∧
      Mirrors (Backend.removeStored m id).2 (Backend.removeStored c id).2 := by
  have htable := h.table id
  cases hs : m.tables.get? id with
  | none =>
    rw [hs] at htable
    have hfiles : Backend.removeStored c id = (.ok false, c) :=
      removeStored_of_no_directory (by simp [htable])
    rw [hfiles, MemoryCatalog.removeStored_of_missing hs]
    exact ⟨rfl, h⟩
  | some stored =>
    rw [hs] at htable
    have hmemory : (Backend.removeStored m id).1 = .ok true := by
      simp only [Backend.removeStored, hs, Option.isSome_some]
    have hfiles : Backend.removeStored c id =
        (.ok true, ⟨c.warehouse.remove (tablePath id)⟩) := removeStored_of_directory htable
    rw [hfiles, hmemory]
    refine ⟨rfl, h.update (o := none) (by simp) (m.get?_removeStored id) ?_ ?_ ?_⟩
    · intro other
      simp only [Warehouse.get?_remove, tablePath_prefix_schemaPath, Option.map_none]
    · intro other
      simp only [Warehouse.get?_remove, tablePath_prefix_tablePath, Option.map_none]
    · intro path contents hp
      rw [Warehouse.get?_remove] at hp
      split at hp
      · cases hp
      · exact .inr hp

theorem mem_tables_iff (h : Mirrors m c) {database name : String} :
    name ∈ c.tables database ↔ name ∈ m.tablesIn database := by
  rw [mem_tables, m.mem_tablesIn]
  constructor
  · intro hlisted
    obtain ⟨contents, hget⟩ := hlisted
    obtain ⟨id, hid⟩ := h.file _ contents hget
    obtain ⟨hdatabase, hrest⟩ := List.cons_eq_cons.mp hid
    obtain ⟨rfl, -⟩ := List.cons_eq_cons.mp hrest
    have hschema := h.schema id
    rw [← hid, hget] at hschema
    obtain ⟨stored, hs, _⟩ := Option.map_eq_some_iff.mp hschema.symm
    exact ⟨id, stored, hs, (databaseName_inj.mp hdatabase).symm, rfl⟩
  · intro hkept
    obtain ⟨id, stored, hs, rfl, rfl⟩ := hkept
    exact ⟨_, (h.schema id).trans (congrArg (Option.map fileOf) hs)⟩

/-- Both catalogs list the tables of a database, each in its own way in ascending order. -/
theorem listTables (h : Mirrors m c) {database : String} (hd : isName database) :
    Backend.listTables c database = Backend.listTables m database := by
  have htables : c.tables database = m.tablesIn database :=
    eq_of_ascending (c.ascending_tables database) (m.ascending_tablesIn database)
      (fun _ => h.mem_tables_iff)
  have hfiles : Backend.listTables c database = .ok (c.tables database) := if_pos hd
  rw [hfiles, htables]
  rfl

end Mirrors

namespace Catalog

namespace Operation

/-- A table that is to be written has names that fit and canonical types. -/
def Admissible : Operation → Prop
  | create id table _ => id.Fits ∧ table.Canonical
  | writeStored id stored => id.Fits ∧ stored.Canonical
  | _ => True

/-- A catalog in files gives the same answer as one in memory. Only a database that cannot be is
refused in files and empty in memory. -/
def Agrees : Operation → Except CatalogError Answer → Except CatalogError Answer → Prop
  | list database, memory, files =>
    if isName database then files = memory
    else memory = .ok (.names []) ∧ files = .error (.invalidIdentifier database)
  | _, memory, files => files = memory

end Operation

variable {m : MemoryCatalog} {c : FileSystemCatalog}

theorem create_mirrors (h : Mirrors m c) {id : Identifier} (hfits : id.Fits) {table : CatalogTable}
    (ht : table.Canonical) (ignoreIfExists : Bool) :
    (create c id table ignoreIfExists).1 = (create m id table ignoreIfExists).1 ∧
      Mirrors (create m id table ignoreIfExists).2 (create c id table ignoreIfExists).2 := by
  unfold create
  rw [h.readStored id]
  split
  · exact ⟨rfl, h⟩
  · exact ⟨rfl, h⟩
  · split
    · exact ⟨rfl, h⟩
    · rename_i stored hs
      exact h.writeStored hfits (StoredTable.canonical_of_toStored ht hs)

theorem drop_mirrors (h : Mirrors m c) (id : Identifier) (ignoreIfMissing : Bool) :
    (drop c id ignoreIfMissing).1 = (drop m id ignoreIfMissing).1 ∧
      Mirrors (drop m id ignoreIfMissing).2 (drop c id ignoreIfMissing).2 := by
  obtain ⟨hresult, hmirrors⟩ := h.removeStored id
  unfold drop
  rcases hm : Backend.removeStored m id with ⟨result, m'⟩
  rcases hc : Backend.removeStored c id with ⟨result', c'⟩
  rw [hm, hc] at hresult hmirrors
  cases hresult
  cases result <;> exact ⟨rfl, hmirrors⟩

/-- One operation is answered alike, and the catalogs still mirror each other after it. -/
theorem step_agrees (h : Mirrors m c) {op : Operation} (hop : op.Admissible) :
    op.Agrees (step m op).1 (step c op).1 ∧ Mirrors (step m op).2 (step c op).2 := by
  cases op with
  | create id table ignoreIfExists =>
    obtain ⟨hresult, hmirrors⟩ := create_mirrors h hop.1 hop.2 ignoreIfExists
    exact ⟨congrArg (Except.map (fun _ => Answer.done)) hresult, hmirrors⟩
  | get id =>
    refine ⟨?_, h⟩
    simp only [Operation.Agrees, step, get, h.readStored]
  | drop id ignoreIfMissing =>
    obtain ⟨hresult, hmirrors⟩ := drop_mirrors h id ignoreIfMissing
    exact ⟨congrArg (Except.map (fun _ => Answer.done)) hresult, hmirrors⟩
  | «exists» id =>
    refine ⟨?_, h⟩
    simp only [Operation.Agrees, step, exists?, h.readStored]
  | list database =>
    refine ⟨?_, h⟩
    simp only [Operation.Agrees]
    split
    · rename_i hd
      simp only [step, h.listTables hd]
    · rename_i hd
      have hmemory : Backend.listTables m database = .ok [] :=
        congrArg Except.ok (m.tablesIn_of_not_isName hd)
      have hfiles : Backend.listTables c database = .error (.invalidIdentifier database) :=
        if_neg hd
      simp only [step, hmemory, hfiles]
      exact ⟨rfl, rfl⟩
  | readStored id =>
    refine ⟨?_, h⟩
    simp only [Operation.Agrees, step, h.readStored]
  | writeStored id stored =>
    obtain ⟨hresult, hmirrors⟩ := h.writeStored hop.1 hop.2
    exact ⟨congrArg (Except.map (fun _ => Answer.done)) hresult, hmirrors⟩
  | removeStored id =>
    obtain ⟨hresult, hmirrors⟩ := h.removeStored id
    exact ⟨congrArg (Except.map Answer.flag) hresult, hmirrors⟩
  | reopen => exact ⟨rfl, h⟩

/-- Catalogs that mirror each other answer alike all along. -/
theorem run_mirrors (h : Mirrors m c) {ops : List Operation} (hops : ∀ op ∈ ops, op.Admissible) :
    (∀ (i : Nat) (op : Operation), ops[i]? = some op → ∃ memory files,
      (run m ops).1[i]? = some memory ∧ (run c ops).1[i]? = some files ∧
        op.Agrees memory files) ∧ Mirrors (run m ops).2 (run c ops).2 := by
  induction ops generalizing m c with
  | nil => exact ⟨by simp, h⟩
  | cons op ops ih =>
    obtain ⟨hop, hops⟩ := List.forall_mem_cons.mp hops
    obtain ⟨hagrees, hnext⟩ := step_agrees h hop
    obtain ⟨hlater, hend⟩ := ih hnext hops
    refine ⟨fun i other hi => ?_, hend⟩
    cases i with
    | zero =>
      cases hi
      exact ⟨_, _, rfl, rfl, hagrees⟩
    | succ i => exact hlater i other hi

/-- Whatever is asked, and however often the catalog in files is opened again, it answers like the
catalog in memory. -/
theorem run_agrees (ops : List Operation) (hops : ∀ op ∈ ops, op.Admissible) (i : Nat)
    (op : Operation) (hi : ops[i]? = some op) :
    ∃ memory files, (run MemoryCatalog.empty ops).1[i]? = some memory ∧
      (run (FileSystemCatalog.mk .empty) ops).1[i]? = some files ∧ op.Agrees memory files :=
  (run_mirrors .empty hops).1 i op hi

def ordersId : Identifier := ⟨"shop", "orders", by decide, by decide⟩

/-- Orders are created and found again by another catalog. -/
def ordersOperations : List Operation :=
  [.create ordersId CatalogTable.ordersTable false, .list "shop", .list "", .reopen, .get ordersId]

theorem run_agrees_orders : (∀ op ∈ ordersOperations, op.Admissible) ∧
    ordersOperations[4]? = some (.get ordersId) ∧
    ∃ memory files, (run MemoryCatalog.empty ordersOperations).1[4]? = some memory ∧
      (run (FileSystemCatalog.mk .empty) ordersOperations).1[4]? = some files ∧
        (Operation.get ordersId).Agrees memory files := by
  have hops : ∀ op ∈ ordersOperations, op.Admissible := by
    simp only [ordersOperations, List.forall_mem_cons, Operation.Admissible, List.not_mem_nil,
      false_implies, implies_true, and_true]
    exact ⟨by decide, by decide, by decide⟩
  exact ⟨hops, rfl, run_agrees ordersOperations hops 4 (.get ordersId) rfl⟩

end Catalog

end FlatSchema
