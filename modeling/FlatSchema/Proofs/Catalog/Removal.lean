import FlatSchema.Proofs.Catalog.Durability

namespace FlatSchema

namespace Catalog

open Backend

variable {σ : Type} [Backend σ]

/-- Nothing is there to remove. Dropping the table is an error where that is not ignored, and all
stays as it is. -/
structure RemovesNothing (s : σ) (id : Identifier) : Prop where
  removed : removeStored s id = (.ok false, s)
  dropped : drop s id false = (.error (.tableMissing id), s)
  ignored : drop s id true = (.ok (), s)

theorem drop_of_removed {s s' : σ} {id : Identifier} {existed : Bool}
    (h : removeStored s id = (.ok existed, s')) (ignoreIfMissing : Bool) :
    drop s id ignoreIfMissing =
      (if existed || ignoreIfMissing then .ok () else .error (.tableMissing id), s') := by
  rw [drop, h]

theorem removesNothing_iff {s : σ} {id : Identifier} :
    RemovesNothing s id ↔ removeStored s id = (.ok false, s) :=
  ⟨RemovesNothing.removed, fun h => ⟨h, drop_of_removed h false, drop_of_removed h true⟩⟩

end Catalog

namespace FileSystemCatalog

open Catalog

variable {c : FileSystemCatalog} {id : Identifier}

theorem removesNothing_iff_no_directory :
    RemovesNothing c id ↔ c.warehouse.get? (tablePath id) ≠ some .directory := by
  rw [removesNothing_iff]
  constructor
  · intro hremoved htable
    have hanswers := congrArg Prod.fst (hremoved.symm.trans (removeStored_of_directory htable))
    cases hanswers
  · exact removeStored_of_no_directory

/-- The directory of a table goes with all that is in it, and dropping the table succeeds. -/
structure ClearsDirectory (c : FileSystemCatalog) (id : Identifier) : Prop where
  removed : (c.removeStored id).1 = .ok true
  dropped : ∀ ignoreIfMissing, drop c id ignoreIfMissing = (.ok (), (c.removeStored id).2)
  cleared : ∀ path, (c.removeStored id).2.warehouse.get? path =
    if tablePath id <+: path then none else c.warehouse.get? path

theorem clearsDirectory (h : c.warehouse.get? (tablePath id) = some .directory) :
    ClearsDirectory c id where
  removed := by rw [removeStored_of_directory h]
  dropped ignoreIfMissing := by
    have hremoved : Backend.removeStored c id = _ := removeStored_of_directory h
    rw [drop_of_removed hremoved, removeStored_of_directory h]
    rfl
  cleared path := by
    rw [removeStored_of_directory h]
    exact Warehouse.get?_remove c.warehouse (tablePath id) path

/-- Every directory of a table has the file of a flat form in it. -/
def Filled (c : FileSystemCatalog) : Prop :=
  ∀ id, c.warehouse.get? (tablePath id) = some .directory →
    ∃ contents, c.warehouse.get? (schemaPath id) = some (.file contents)

namespace Filled

theorem empty : Filled ⟨.empty⟩ := by
  intro id h
  cases h

/-- A directory is made for a table only if its flat form is written too. -/
theorem writeStored (h : Filled c) (id : Identifier) (stored : StoredTable) :
    Filled (c.writeStored id stored).2 := by
  intro other htable
  cases hresult : (c.writeStored id stored).1 with
  | error e =>
    rw [get?_of_writeStored_eq_error hresult (by simp [tablePath])] at htable
    rw [get?_of_writeStored_eq_error hresult (by simp [schemaPath, tablePath])]
    exact h other htable
  | ok =>
    by_cases hother : other = id
    · rw [hother]
      exact ⟨_, get?_schemaPath_of_writeStored_eq_ok hresult⟩
    have hbefore : c.warehouse.get? (tablePath other) = some .directory := by
      rcases c.get?_writeStored id stored (tablePath other) with hsame | ⟨hon, _⟩ | ⟨hpath, _⟩
      · exact hsame.symm.trans htable
      · exact absurd (onWay_tablePath_tablePath.mp hon) hother
      · exact absurd hpath.symm (schemaPath_ne_tablePath id other)
    obtain ⟨contents, hfile⟩ := h other hbefore
    rcases c.get?_writeStored id stored (schemaPath other) with hsame | ⟨hon, _⟩ | ⟨hpath, _⟩
    · exact ⟨contents, hsame.trans hfile⟩
    · exact absurd hon (not_onWay_schemaPath id other)
    · exact absurd (schemaPath_inj.mp hpath) hother

/-- A flat form is removed only with the directory in which it is. -/
theorem removeStored (h : Filled c) (id : Identifier) : Filled (c.removeStored id).2 := by
  by_cases htable : c.warehouse.get? (tablePath id) = some .directory
  · intro other hother
    simp only [(clearsDirectory htable).cleared, tablePath_prefix_tablePath] at hother
    simp only [(clearsDirectory htable).cleared, tablePath_prefix_schemaPath]
    split at hother
    · cases hother
    · rename_i hne
      rw [if_neg hne]
      exact h other hother
  · rw [removeStored_of_no_directory htable]
    exact h

theorem change {c' : FileSystemCatalog} (h : Filled c) {op : Operation} (hc : Change c op c') :
    Filled c' := by
  cases hc with
  | unchanged => exact h
  | written _ => exact h.writeStored _ _
  | removed _ => exact h.removeStored _
  | reopened => exact h

theorem run (h : Filled c) (ops : List Operation) : Filled (run c ops).2 := by
  induction ops generalizing c with
  | nil => exact h
  | cons op ops ih => exact ih (h.change (change_step c op))

/-- Where no table is read, no directory is there for it. -/
theorem removesNothing (h : Filled c) (hmissing : c.readStored id = .ok none) :
    RemovesNothing c id := by
  rw [removesNothing_iff_no_directory]
  intro htable
  obtain ⟨contents, hfile⟩ := h id htable
  exact readStored_eq_none_iff.mp hmissing contents hfile

end Filled

/-- Whether a table is read depends on a file, and whether it is removed on the directory around
that file, which goes with all that is in it. The two tell the same of a table that is not there as
long as all directories of tables have been made by the catalog itself. -/
theorem removal_by_directory (c : FileSystemCatalog) (id : Identifier) :
    (c.readStored id = .ok none ↔
      ∀ contents, c.warehouse.get? (schemaPath id) ≠ some (.file contents)) ∧
    (RemovesNothing c id ↔ c.warehouse.get? (tablePath id) ≠ some .directory) ∧
    (c.warehouse.get? (tablePath id) = some .directory → ClearsDirectory c id) ∧
    ∀ ops, c.Filled → (run c ops).2.readStored id = .ok none →
      RemovesNothing (run c ops).2 id :=
  ⟨readStored_eq_none_iff, removesNothing_iff_no_directory, clearsDirectory,
    fun ops hfilled => (hfilled.run ops).removesNothing⟩

/-- Others have left a note in a directory where orders are to be. -/
def leftover : FileSystemCatalog :=
  ⟨(Warehouse.empty.putFileAt "shop.db/orders/notes.txt" "keep".toUTF8).2⟩

theorem removal_by_directory_orders :
    (leftover.warehouse.get? (tablePath ordersId) = some .directory ∧
      ClearsDirectory leftover ordersId) ∧
    Filled ⟨.empty⟩ ∧ (run (FileSystemCatalog.mk .empty) ordersDropped).2.readStored ordersId =
        .ok none ∧
      RemovesNothing (run (FileSystemCatalog.mk .empty) ordersDropped).2 ordersId := by
  have htable : leftover.warehouse.get? (tablePath ordersId) = some .directory := by
    decide +kernel
  have hmissing : (run (FileSystemCatalog.mk .empty) ordersDropped).2.readStored ordersId =
      .ok none := by decide +kernel
  exact ⟨⟨htable, (removal_by_directory leftover ordersId).2.2.1 htable⟩, .empty, hmissing,
    (removal_by_directory ⟨.empty⟩ ordersId).2.2.2 ordersDropped .empty hmissing⟩

/-- Orders cannot be read where only the note is, and are removed with it all the same. -/
theorem removeStored_leftover : leftover.readStored ordersId = .ok none ∧
    (leftover.removeStored ordersId).1 = .ok true ∧
    (drop leftover ordersId false).1 = .ok () ∧
    (drop leftover ordersId true).2 ≠ leftover := by
  decide +kernel

end FileSystemCatalog

end FlatSchema
