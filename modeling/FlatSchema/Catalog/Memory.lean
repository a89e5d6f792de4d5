import FlatSchema.Catalog.Backend

namespace FlatSchema

/-- A catalog that lives in memory and ends with the session. -/
structure MemoryCatalog where
  tables : SortedMap Identifier StoredTable
deriving DecidableEq

namespace MemoryCatalog

def empty : MemoryCatalog := ⟨.empty⟩

/-- The names of the tables of a database, in the order of the identifiers. -/
def tablesIn (c : MemoryCatalog) (database : String) : List String :=
  (c.tables.keys.filter (fun id => id.database = database)).map Identifier.table

instance : Backend MemoryCatalog where
  readStored c id := .ok (c.tables.get? id)
  writeStored c id table := (.ok (), ⟨c.tables.insert id table⟩)
  removeStored c id := (.ok (c.tables.get? id).isSome, ⟨c.tables.erase id⟩)
  listTables c database := .ok (c.tablesIn database)
  reopen c := c

end MemoryCatalog

end FlatSchema
