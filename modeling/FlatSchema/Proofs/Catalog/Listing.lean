import FlatSchema.Proofs.ByteOrder
import FlatSchema.Proofs.Catalog.Durability

namespace FlatSchema

namespace Warehouse

/-- The names of what lies in a directory itself. -/
def namesIn (w : Warehouse) (directory : Path) : List String :=
  w.entries.entries.filterMap
    (fun e => if e.1.dropLast = directory then e.1.getLast? else none)

def holdsFile (w : Warehouse) (path : Path) : Bool :=
  match w.get? path with
  | some (.file _) => true
  | _ => false

variable {w : Warehouse} {directory path : Path} {name : String}

theorem holdsFile_iff : w.holdsFile path ↔ ∃ contents, w.get? path = some (.file contents) := by
  unfold holdsFile
  split
  · rename_i contents hfile
    simp [hfile]
  · rename_i hother
    simpa using hother

theorem name_eq_some_iff :
    (if path.dropLast = directory then path.getLast? else none) = some name ↔
      path = directory ++ [name] := by
  constructor
  · intro h
    split at h
    · rename_i hdirectory
      rw [← hdirectory, List.dropLast_append_getLast? name h]
    · cases h
  · intro h
    rw [h, List.dropLast_concat, if_pos rfl, List.getLast?_concat]

theorem mem_namesIn : name ∈ w.namesIn directory ↔
    ∃ entry, w.get? (directory ++ [name]) = some entry := by
  simp only [namesIn, List.mem_filterMap, name_eq_some_iff]
  constructor
  · intro h
    obtain ⟨⟨path, entry⟩, hentry, rfl⟩ := h
    exact ⟨entry, SortedMap.get?_eq_some_iff.mpr hentry⟩
  · intro h
    obtain ⟨entry, hentry⟩ := h
    exact ⟨_, SortedMap.get?_eq_some_iff.mp hentry, rfl⟩

/-- No name comes twice, because no path does. -/
theorem nodup_namesIn : (w.namesIn directory).Nodup := by
  refine List.Pairwise.filterMap _ ?_ w.entries.ascending
  intro e e' hlt name hname name' hname' heq
  rw [name_eq_some_iff.mp hname, name_eq_some_iff.mp hname', heq] at hlt
  simp at hlt

/-- What lies in a directory is there only with the directory. -/
theorem get?_directory {entry : Entry} (h : w.get? (directory ++ [name]) = some entry)
    (hdirectory : directory ≠ []) : w.get? directory = some .directory := by
  have hhoused := (w.housed _ _ h).2
  rw [List.dropLast_concat] at hhoused
  exact hhoused.resolve_left hdirectory

end Warehouse

namespace FileSystemCatalog

open Catalog

/-- Those of the names found in the directory of a database that have a flat form in them. -/
def tablesAmong (c : FileSystemCatalog) (database : String) (found : List String) : List String :=
  found.filter (fun name => c.warehouse.holdsFile [databaseName database, name, schemaFile])

/-- The tables that a walk through the directory of a database finds among the names in it. -/
def walk (c : FileSystemCatalog) (database : String) (found : List String) : List String :=
  if c.warehouse.get? [databaseName database] = some .directory then
    (c.tablesAmong database found).mergeSort (fun a b => (compare a b).isLE)
  else []

variable {c : FileSystemCatalog} {database name : String} {found : List String}

/-- The file of a flat form is come upon in the directory of its database. -/
theorem mem_walk (hfound : found.Perm (c.warehouse.namesIn [databaseName database])) :
    name ∈ c.walk database found ↔ ∃ contents,
      c.warehouse.get? [databaseName database, name, schemaFile] = some (.file contents) := by
  constructor
  · intro h
    unfold walk at h
    split at h
    · rw [List.mem_mergeSort, tablesAmong, List.mem_filter, Warehouse.holdsFile_iff] at h
      exact h.2
    · cases h
  · intro hfile
    obtain ⟨contents, hget⟩ := hfile
    have htable : c.warehouse.get? [databaseName database, name] = some .directory :=
      Warehouse.get?_directory hget (List.cons_ne_nil _ _)
    have hdatabase : c.warehouse.get? [databaseName database] = some .directory :=
      Warehouse.get?_directory htable (List.cons_ne_nil _ _)
    rw [walk, if_pos hdatabase, List.mem_mergeSort, tablesAmong, List.mem_filter,
      Warehouse.holdsFile_iff, hfound.mem_iff, Warehouse.mem_namesIn]
    exact ⟨⟨_, htable⟩, contents, hget⟩

theorem total_compare (a b : String) : (compare a b).isLE || (compare b a).isLE := by
  rw [Std.OrientedOrd.eq_swap (a := b)]
  cases compare a b <;> rfl

theorem ascending_walk (hfound : found.Perm (c.warehouse.namesIn [databaseName database])) :
    (c.walk database found).Pairwise (fun a b => compare a b = .lt) := by
  unfold walk
  split
  · have hnodup : (c.tablesAmong database found).Nodup :=
      (hfound.symm.nodup Warehouse.nodup_namesIn).filter _
    have hsorted : List.Pairwise (fun a b => (compare a b).isLE)
        ((c.tablesAmong database found).mergeSort (fun a b => (compare a b).isLE)) :=
      List.pairwise_mergeSort (fun _ _ _ => Std.TransCmp.isLE_trans) total_compare _
    refine (hsorted.and ((List.mergeSort_perm _ _).symm.nodup hnodup)).imp ?_
    intro a b h
    obtain ⟨hle, hne⟩ := h
    rcases Ordering.isLE_iff_eq_lt_or_eq_eq.mp hle with hlt | heq
    · exact hlt
    · exact absurd (Std.LawfulEqCmp.eq_of_compare heq) hne
  · exact List.Pairwise.nil

/-- Whatever the order in which the names are come upon, a walk finds what is listed. -/
theorem walk_eq_tables (hfound : found.Perm (c.warehouse.namesIn [databaseName database])) :
    c.walk database found = c.tables database :=
  eq_of_ascending (ascending_walk hfound) (c.ascending_tables database)
    (fun _ => (mem_walk hfound).trans mem_tables.symm)

theorem listTables_of_isName (h : isName database) :
    c.listTables database = .ok (c.tables database) := if_pos h

/-- A listing is in the ascending order of bytes and tells just the tables of which reading does not
say that they are not there. A walk through the directory of the database finds the same, whatever
the order of the names in it. -/
theorem listTables_agrees (c : FileSystemCatalog) {database : String} (h : isName database) :
    ∃ names, c.listTables database = .ok names ∧
      names.Pairwise (fun a b => Text.bytes a < Text.bytes b) ∧
      (∀ id : Identifier, id.database = database →
        (id.table ∈ names ↔ c.readStored id ≠ .ok none)) ∧
      ∀ found : List String, found.Perm (c.warehouse.namesIn [databaseName database]) →
        c.walk database found = names := by
  refine ⟨c.tables database, listTables_of_isName h, ?_, ?_, fun _ => walk_eq_tables⟩
  · exact (c.ascending_tables database).imp Text.compare_eq_lt_iff_bytes.mp
  · intro id hdatabase
    rw [mem_tables, Ne, readStored_eq_none_iff, ← hdatabase]
    simp [schemaPath, tablePath]

/-- Orders can be read and customers cannot. Others have left a directory with the name of a flat
form in place of one, and a file beside the directories. -/
def cluttered : FileSystemCatalog :=
  ⟨((((Warehouse.empty.putFileAt "shop.db/orders/schema.json"
        "\x7b\"fields\":[]\x7d".toUTF8).2.putFileAt
      "shop.db/customers/schema.json" "gone".toUTF8).2.putFileAt
    "shop.db/returns/schema.json/notes.txt" "keep".toUTF8).2.putFileAt
    "shop.db/notes.txt" "keep".toUTF8).2⟩

theorem listTables_agrees_cluttered :
    isName "shop" ∧ cluttered.listTables "shop" = .ok ["customers", "orders"] ∧
    cluttered.readStored customersId ≠ .ok none ∧
    ["returns", "orders", "notes.txt", "customers"].Perm
      (cluttered.warehouse.namesIn [databaseName "shop"]) ∧
    cluttered.walk "shop" ["returns", "orders", "notes.txt", "customers"] =
      ["customers", "orders"] := by
  have hshop : isName "shop" := by decide
  have hlisted : cluttered.listTables "shop" = .ok ["customers", "orders"] := by decide +kernel
  have hfound : ["returns", "orders", "notes.txt", "customers"].Perm
      (cluttered.warehouse.namesIn [databaseName "shop"]) := by decide +kernel
  obtain ⟨names, hnames, _, hmem, hwalk⟩ := listTables_agrees cluttered hshop
  obtain rfl : ["customers", "orders"] = names := Except.ok.inj (hlisted.symm.trans hnames)
  exact ⟨hshop, hlisted, (hmem customersId (by decide)).mp (by decide), hfound,
    hwalk _ hfound⟩

end FileSystemCatalog

end FlatSchema
