import FlatSchema.Catalog.Error
import FlatSchema.Table

namespace FlatSchema

/-- Storage of flat forms. What writes also tells the state after it, whether it succeeds or not. -/
class Backend (σ : Type) where
  readStored : σ → Identifier → Except CatalogError (Option StoredTable)
  /-- Stores a flat form in place of any earlier one. -/
  writeStored : σ → Identifier → StoredTable → Except CatalogError Unit × σ
  /-- Removes a table and tells whether it was there. -/
  removeStored : σ → Identifier → Except CatalogError Bool × σ
  /-- The names of the tables of a database in ascending order. -/
  listTables : σ → String → Except CatalogError (List String)
  /-- The state that another catalog on the same storage begins with. -/
  reopen : σ → σ

namespace Catalog

variable {σ : Type} [Backend σ]

open Backend

/-- Creates a table. One that is there already stays as it is. -/
def create (s : σ) (id : Identifier) (table : CatalogTable) (ignoreIfExists : Bool) :
    Except CatalogError Unit × σ :=
  match readStored s id with
  | .error e => (.error e, s)
  | .ok (some _) => (if ignoreIfExists then .ok () else .error (.tableExists id), s)
  | .ok none =>
    match table.toStored with
    | .error cause => (.error (.schema id cause), s)
    | .ok stored => writeStored s id stored

def get (s : σ) (id : Identifier) : Except CatalogError CatalogTable :=
  match readStored s id with
  | .error e => .error e
  | .ok none => .error (.tableMissing id)
  | .ok (some stored) => stored.restore.mapError (CatalogError.schema id)

def drop (s : σ) (id : Identifier) (ignoreIfMissing : Bool) : Except CatalogError Unit × σ :=
  match removeStored s id with
  | (.error e, s) => (.error e, s)
  | (.ok existed, s) =>
    (if existed || ignoreIfMissing then .ok () else .error (.tableMissing id), s)

def exists? (s : σ) (id : Identifier) : Except CatalogError Bool :=
  (readStored s id).map Option.isSome

inductive Operation where
  | create (id : Identifier) (table : CatalogTable) (ignoreIfExists : Bool)
  | get (id : Identifier)
  | drop (id : Identifier) (ignoreIfMissing : Bool)
  | exists (id : Identifier)
  | list (database : String)
  | readStored (id : Identifier)
  | writeStored (id : Identifier) (table : StoredTable)
  | removeStored (id : Identifier)
  | reopen

inductive Answer where
  | done
  | table (value : CatalogTable)
  | stored (value : Option StoredTable)
  | flag (value : Bool)
  | names (values : List String)
deriving DecidableEq

/-- Carries out one operation, by what the backend keeps of tables. -/
def step (s : σ) : Operation → Except CatalogError Answer × σ
  | .create id table ignoreIfExists =>
    let (result, s) := create s id table ignoreIfExists
    (result.map (fun _ => .done), s)
  | .get id => ((get s id).map .table, s)
  | .drop id ignoreIfMissing =>
    let (result, s) := drop s id ignoreIfMissing
    (result.map (fun _ => .done), s)
  | .exists id => ((exists? s id).map .flag, s)
  | .list database => ((listTables s database).map .names, s)
  | .readStored id => ((readStored s id).map .stored, s)
  | .writeStored id table =>
    let (result, s) := writeStored s id table
    (result.map (fun _ => .done), s)
  | .removeStored id =>
    let (result, s) := removeStored s id
    (result.map .flag, s)
  | .reopen => (.ok .done, reopen s)

/-- Carries out operations one after another. One that fails does not stop the next. -/
def run (s : σ) : List Operation → List (Except CatalogError Answer) × σ
  | [] => ([], s)
  | op :: ops =>
    let (answer, s) := step s op
    let (answers, s) := run s ops
    (answer :: answers, s)

end Catalog

end FlatSchema
