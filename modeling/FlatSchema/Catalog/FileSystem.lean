import FlatSchema.Catalog.Backend
import FlatSchema.Catalog.Warehouse
import FlatSchema.Form.Table

namespace FlatSchema

/-- A catalog over a tree of files, which other tools may have written to. -/
structure FileSystemCatalog where
  warehouse : Warehouse
deriving DecidableEq

namespace FileSystemCatalog

def databaseName (database : String) : String := database ++ ".db"

def schemaFile : String := "schema.json"

/-- The directory of a table, which no other table has. -/
def tablePath (id : Identifier) : Path := [databaseName id.database, id.table]

/-- The file of a flat form, in the directory of its table. -/
def schemaPath (id : Identifier) : Path := tablePath id ++ [schemaFile]

def readStored (c : FileSystemCatalog) (id : Identifier) :
    Except CatalogError (Option StoredTable) :=
  match c.warehouse.get? (schemaPath id) with
  | some (.file contents) =>
    match String.fromUTF8? contents with
    | some text =>
      match Json.readDocument StoredTable.read text with
      | .ok stored => .ok (some stored)
      | .error cause => .error (.unreadable (schemaPath id) cause)
    | none => .error (.io (schemaPath id))
  | _ => .ok none

/-- Writes the flat form of a table, and makes the directories on the way to it. -/
def writeStored (c : FileSystemCatalog) (id : Identifier) (stored : StoredTable) :
    Except CatalogError Unit × FileSystemCatalog :=
  match c.warehouse.makeDirectories [] (tablePath id) with
  | (false, w) => (.error (.io (tablePath id)), ⟨w⟩)
  | (true, w) =>
    match w.put? (schemaPath id) (.file (stored.toJson.render .pretty).toUTF8) with
    | some w => (.ok (), ⟨w⟩)
    | none => (.error (.io (schemaPath id)), ⟨w⟩)

def removeStored (c : FileSystemCatalog) (id : Identifier) :
    Except CatalogError Bool × FileSystemCatalog :=
  if c.warehouse.get? (tablePath id) = some .directory then
    (.ok true, ⟨c.warehouse.remove (tablePath id)⟩)
  else (.ok false, c)

/-- The table of a database to which an entry belongs as its flat form. -/
def tableOf? (database : String) : Path × Entry → Option String
  | ([directory, name, file], .file _) =>
    if directory = databaseName database ∧ file = schemaFile then some name else none
  | _ => none

def listTables (c : FileSystemCatalog) (database : String) :
    Except CatalogError (List String) :=
  if isName database then .ok (c.warehouse.entries.entries.filterMap (tableOf? database))
  else .error (.invalidIdentifier database)

instance : Backend FileSystemCatalog where
  readStored := readStored
  writeStored := writeStored
  removeStored := removeStored
  listTables := listTables
  reopen c := ⟨c.warehouse⟩

end FileSystemCatalog

end FlatSchema
