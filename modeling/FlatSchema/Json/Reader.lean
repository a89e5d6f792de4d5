import FlatSchema.Error
import FlatSchema.Json.Tree

namespace FlatSchema.Json

/-- Why a document does not read as a value. -/
inductive ReadError where
  /-- Broken syntax or the wrong shape. -/
  | malformed
  /-- The shape is right, but the schema or a type in it is not. -/
  | rejected (cause : SchemaError)
deriving DecidableEq

/-- What reads a value of a type. The first fault met in the order of the text is the error. -/
abbrev Reader (α : Type) := Tree → Except ReadError α

/-- A value that may be missing from what was read. -/
def ofOption {α : Type} : Option α → Except ReadError α
  | some value => .ok value
  | none => .error .malformed

def readText : Reader String
  | .text value => ofOption value
  | _ => .error .malformed

def readBool : Reader Bool
  | .bool value => .ok value
  | _ => .error .malformed

def readOptional {α : Type} (read : Reader α) : Reader (Option α)
  | .null => .ok none
  | t => (read t).map some

def readList {α : Type} (read : Reader α) : Reader (List α)
  | .array items closed => do
    let values ← items.mapM read
    if closed then .ok values else .error .malformed
  | _ => .error .malformed

/-- The entries of an object, of which the last one of a key stays. -/
def readMap {α : Type} (read : Reader α) : Reader (SortedMap String α)
  | .object members closed => do
    let entries ← members.mapM (fun m => do
      let key ← ofOption m.1
      let value ← read m.2
      .ok (key, value))
    if closed then .ok (.ofList entries) else .error .malformed
  | _ => .error .malformed

/-- A field of a record: its name, and how its value changes what has been read of the record. -/
structure Field (σ : Type) where
  name : String
  read : Tree → σ → Except ReadError σ

/-- A field whose value is read by itself. -/
def field {σ α : Type} (name : String) (read : Reader α) (set : α → σ → σ) : Field σ :=
  ⟨name, fun t draft => (read t).map (set · draft)⟩

/-- What a record does with members that are none of its fields. -/
inductive Unknown where
  | ignore
  | refuse
deriving DecidableEq

/-- Reads the members of a record. No field may come twice, and an ignored value need only be
closed. -/
def readMembers {σ : Type} (fields : List (Field σ)) (unknown : Unknown) (seen : List String) :
    List (Option String × Tree) → σ → Except ReadError σ
  | [], draft => .ok draft
  | (none, _) :: _, _ => .error .malformed
  | (some key, value) :: rest, draft =>
    match fields.find? (fun f => f.name == key) with
    | some f =>
      if key ∈ seen then .error .malformed
      else do
        let draft ← f.read value draft
        readMembers fields unknown (key :: seen) rest draft
    | none =>
      if unknown = .ignore ∧ value.isClosed then readMembers fields unknown seen rest draft
      else .error .malformed

/-- Reads the fields of a record by their places. Those at the end may be missing. -/
def readPlaces {σ : Type} : List (Field σ) → List Tree → σ → Except ReadError σ
  | _, [], draft => .ok draft
  | [], _ :: _, _ => .error .malformed
  | f :: fields, value :: rest, draft => do
    let draft ← f.read value draft
    readPlaces fields rest draft

/-- How a record is read: from an object with the names of its fields as keys, in any order, or from
an array of the fields in their own order. -/
structure Shape (σ α : Type) where
  fields : List (Field σ)
  unknown : Unknown
  /-- What is known before any field has been read. -/
  start : σ
  /-- The record, if no field is missing that must be there. -/
  finish : σ → Option α

def Shape.read {σ α : Type} (shape : Shape σ α) : Reader α
  | .object members closed => do
    let draft ← readMembers shape.fields shape.unknown [] members shape.start
    if closed then ofOption (shape.finish draft) else .error .malformed
  | .array items closed => do
    let draft ← readPlaces shape.fields items shape.start
    if closed then ofOption (shape.finish draft) else .error .malformed
  | _ => .error .malformed

/-- Reads a whole text. What follows the value is looked at last. -/
def readDocument {α : Type} (read : Reader α) (text : String) : Except ReadError α := do
  let document := Document.ofText text
  let root ← ofOption document.root
  let value ← read root
  if document.trailing then .error .malformed else .ok value

end FlatSchema.Json
