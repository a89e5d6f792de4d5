import FlatSchema.Proofs.Catalog.Durability
import FlatSchema.Proofs.Outcomes

namespace FlatSchema

namespace Catalog

open Backend

variable {σ : Type} [Backend σ]

/-- Nothing that is stored tells one state from the other. -/
structure Alike (s s' : σ) : Prop where
  read : ∀ id, readStored s' id = readStored s id
  remove : ∀ id, (removeStored s' id).1 = (removeStored s id).1
  list : ∀ database, listTables s' database = listTables s database

namespace Alike

variable {s s' s'' : σ}

theorem refl (s : σ) : Alike s s := ⟨fun _ => rfl, fun _ => rfl, fun _ => rfl⟩

theorem trans (h : Alike s s') (h' : Alike s' s'') : Alike s s'' where
  read id := (h'.read id).trans (h.read id)
  remove id := (h'.remove id).trans (h.remove id)
  list database := (h'.list database).trans (h.list database)

end Alike

/-- What storage owes where it has not done what it was asked to do. -/
structure Restrained (σ : Type) [Backend σ] : Prop where
  written : ∀ (s : σ) id stored e, (writeStored s id stored).1 = .error e →
    Alike s (writeStored s id stored).2
  removed : ∀ (s : σ) id, (removeStored s id).1 ≠ .ok true → Alike s (removeStored s id).2

/-- A table that was there is dropped without an error. -/
theorem removeStored_ne_of_drop_eq_error {s : σ} {id : Identifier} {ignoreIfMissing : Bool}
    {e : CatalogError} (h : (drop s id ignoreIfMissing).1 = .error e) :
    (removeStored s id).1 ≠ .ok true := by
  intro hremoved
  rw [drop] at h
  rcases hafter : removeStored s id with ⟨answer, s'⟩
  rw [hafter] at h hremoved
  obtain rfl := hremoved
  simp at h

namespace Restrained

/-- An operation that fails leaves a state alike. -/
theorem alike_step (laws : Restrained σ) {s : σ} {op : Operation} {e : CatalogError}
    (h : (step s op).1 = .error e) : Alike s (step s op).2 := by
  cases op with
  | create id table ignoreIfExists =>
    have hcreate : (create s id table ignoreIfExists).1 = .error e :=
      except_map_eq_error_iff.mp h
    change Alike s (create s id table ignoreIfExists).2
    rcases create_cases s id table ignoreIfExists with ⟨answer, heq⟩ | ⟨_, stored, heq⟩
    · rw [heq]
      exact .refl s
    · rw [heq] at hcreate ⊢
      exact laws.written s id stored e hcreate
  | drop id ignoreIfMissing =>
    have hdrop : (drop s id ignoreIfMissing).1 = .error e := except_map_eq_error_iff.mp h
    change Alike s (drop s id ignoreIfMissing).2
    rw [drop_snd]
    exact laws.removed s id (removeStored_ne_of_drop_eq_error hdrop)
  | writeStored id stored => exact laws.written s id stored e (except_map_eq_error_iff.mp h)
  | removeStored id =>
    have hremove : (Backend.removeStored s id).1 = .error e := except_map_eq_error_iff.mp h
    exact laws.removed s id (by simp [hremove])
  | reopen => cases h
  | get id | «exists» id | list database | readStored id => exact .refl s

/-- So do operations of which none succeeds, however many there are. -/
theorem alike_run (laws : Restrained σ) {s : σ} {ops : List Operation}
    (h : ∀ answer ∈ (run s ops).1, ∃ e, answer = .error e) : Alike s (run s ops).2 := by
  induction ops generalizing s with
  | nil => exact .refl s
  | cons op ops ih =>
    obtain ⟨⟨e, hstep⟩, hrest⟩ := List.forall_mem_cons.mp h
    exact (laws.alike_step hstep).trans (ih hrest)

end Restrained

end Catalog

open Catalog FileSystemCatalog

namespace MemoryCatalog

theorem restrained : Restrained MemoryCatalog where
  written _ _ _ _ h := by cases h
  removed m id h := by
    have hmissing : m.tables.get? id = none := by
      cases hget : m.tables.get? id with
      | none => rfl
      | some stored => simp [Backend.removeStored, hget] at h
    rw [removeStored_of_missing hmissing]
    exact .refl m

end MemoryCatalog

namespace FileSystemCatalog

/-- What a catalog in files tells does not depend on what is at the top of its warehouse. -/
theorem alike_of_get? {c c' : FileSystemCatalog}
    (h : ∀ path, (∀ name, path ≠ [name]) → c'.warehouse.get? path = c.warehouse.get? path) :
    Alike c c' where
  read id := readStored_congr (h (schemaPath id) (by simp [schemaPath, tablePath]))
  remove id := by
    have htable := h (tablePath id) (by simp [tablePath])
    change (c'.removeStored id).1 = (c.removeStored id).1
    rw [removeStored, removeStored, htable]
    split <;> rfl
  list database := by
    have htables : c'.tables database = c.tables database := by
      apply eq_of_ascending (c'.ascending_tables database) (c.ascending_tables database)
      intro name
      rw [mem_tables, mem_tables, h _ (by simp)]
    change c'.listTables database = c.listTables database
    rw [listTables, listTables, ← tables, ← tables, htables]

theorem restrained : Restrained FileSystemCatalog where
  written c id stored e h := by
    apply alike_of_get?
    intro path hpath
    exact get?_of_writeStored_eq_error h (hpath (databaseName id.database))
  removed c id h := by
    have hmissing : c.warehouse.get? (tablePath id) ≠ some .directory := by
      intro htable
      exact h (congrArg Prod.fst (removeStored_of_directory htable))
    have hunchanged : Backend.removeStored c id = (.ok false, c) :=
      removeStored_of_no_directory hmissing
    rw [hunchanged]
    exact .refl c

end FileSystemCatalog

namespace Catalog

/-- Whatever is asked of either backend, and whatever others have put into a warehouse, an error is
not seen in what can be read, removed and listed afterwards. -/
theorem failures_unseen (op : Operation) (e : CatalogError) :
    (∀ m : MemoryCatalog, (step m op).1 = .error e → Alike m (step m op).2) ∧
    ∀ c : FileSystemCatalog, (step c op).1 = .error e → Alike c (step c op).2 :=
  ⟨fun _ h => MemoryCatalog.restrained.alike_step h,
    fun _ h => FileSystemCatalog.restrained.alike_step h⟩

/-- A catalog in memory that holds orders. -/
def stocked : MemoryCatalog :=
  (step .empty (.create ordersId CatalogTable.ordersTable false)).2

/-- What comes of dropping customers from it. -/
def missed : Except CatalogError Answer × MemoryCatalog :=
  step stocked (.drop customersId false)

/-- A table of a name that no directory can have. -/
def overlongId : Identifier := { ordersId with
  table := String.ofList (List.replicate 256 'a')
  isName_table := by
    rw [isName, String.toList_ofList, List.any_replicate]
    decide +kernel }

/-- What comes of creating a table that can have no directory. -/
def stranded : Except CatalogError Answer × FileSystemCatalog :=
  step ⟨.empty⟩ (.create overlongId CatalogTable.ordersTable false)

/-- The directory of a database without tables is left behind in files, and nothing tells of it. -/
theorem failures_unseen_left : stocked ≠ .empty ∧
    missed.1 = .error (.tableMissing customersId) ∧ Alike stocked missed.2 ∧
    stranded.1 = .error (.io (tablePath overlongId)) ∧
    stranded.2 ≠ ⟨.empty⟩ ∧ Alike ⟨.empty⟩ stranded.2 := by
  have hstocked : stocked ≠ .empty := by decide
  have hmissing : missed.1 = .error (.tableMissing customersId) := by decide
  have hrefused : stranded.1 = .error (.io (tablePath overlongId)) := by decide +kernel
  have hdirectory : stranded.2 ≠ ⟨.empty⟩ := by decide +kernel
  exact ⟨hstocked, hmissing, (failures_unseen _ _).1 stocked hmissing,
    hrefused, hdirectory, (failures_unseen _ _).2 ⟨.empty⟩ hrefused⟩

end Catalog

end FlatSchema
