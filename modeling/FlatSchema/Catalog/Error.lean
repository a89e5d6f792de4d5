import FlatSchema.Catalog.Identifier
import FlatSchema.Json.Position

namespace FlatSchema

/-- The way to a file or directory from the top of a warehouse. -/
abbrev Path := List String

def Path.text (path : Path) : String := "/".intercalate path

/-- The parts of a text between its slashes. -/
def Path.components (text : String) : List String :=
  (text.toList.splitOn '/').map String.ofList

/-- The parts of a text that lead from one directory to another. -/
def Path.steps (text : String) : List String :=
  (Path.components text).filter (fun name => name != "" && name != ".")

/-- Why a catalog refuses an operation. -/
inductive CatalogError where
  | tableExists (id : Identifier)
  | tableMissing (id : Identifier)
  | invalidIdentifier (input : String)
  /-- A file or directory cannot be read or made. -/
  | io (path : Path)
  /-- A file does not hold a stored table. -/
  | unreadable (path : Path) (cause : Json.ReadError)
  | schema (id : Identifier) (cause : SchemaError)
deriving DecidableEq

/-- The text of an error, unless it is for the file system to tell. -/
def CatalogError.message? : CatalogError → Option String
  | tableExists id => some ("Table " ++ id.text ++ " already exists")
  | tableMissing id => some ("Table " ++ id.text ++ " does not exist")
  | invalidIdentifier input =>
    some ("Invalid table identifier '" ++ input ++ "': expected <database>.<table>")
  | io _ => none
  | unreadable _ cause => cause.message? true
  | schema id cause => some ("Invalid schema for table " ++ id.text ++ ": " ++ cause.message)

namespace Identifier

def ofParts (database table : String) : Except CatalogError Identifier :=
  match ofParts? database table with
  | some id => .ok id
  | none => .error (.invalidIdentifier (database ++ "." ++ table))

def ofText (text : String) : Except CatalogError Identifier :=
  match split? text with
  | some (database, table) => ofParts database table
  | none => .error (.invalidIdentifier text)

end Identifier

end FlatSchema
