import FlatSchema.CommandLine.Arguments
import FlatSchema.Form.Table

namespace FlatSchema.CommandLine

open Json

/-- Why a command on a file fails. -/
inductive Failure where
  | unreadable (file : String)
  | unparsable (file : String)
  /-- A file to count in holds neither a stored table nor options. -/
  | neither (file : String)
  | schema (cause : SchemaError)
deriving DecidableEq

def Failure.message : Failure → String
  | unreadable file => "Failed to read " ++ file
  | unparsable file => "Failed to parse " ++ file
  | neither file => file ++ " is neither a stored table nor an option map"
  | schema cause => cause.message

/-- Reads any whole value, in which each object keeps only the last member of a key. -/
def readWhole : Reader Tree := fun t =>
  if t.isWhole 0 then .ok t.lastMembers else .error .malformed

/-- The number of non-physical columns in a stored table or, if the value is none, in options. -/
def countIn? (physical : List String) (t : Tree) : Option Nat :=
  match StoredTable.read t, readMap readText t with
  | .ok stored, _ => some (countNonPhysical stored.options (physical ++ stored.fieldNames))
  | _, .ok options => some (countNonPhysical options physical)
  | _, _ => none

namespace Invocation

def style (i : Invocation) : Style := if i.pretty then .pretty else .compact

def parse {α : Type} (i : Invocation) (read : Reader α) (contents : String) : Except Failure α :=
  (readDocument read contents).mapError (fun _ => .unparsable i.file)

/-- What a command prints, given what its file holds if it can be read as text. -/
def answer (i : Invocation) (contents : Option String) : Except Failure String :=
  match contents with
  | none => .error (.unreadable i.file)
  | some contents =>
    match i.command with
    | .encode => do
      let table ← i.parse CatalogTable.read contents
      let stored ← table.toStored.mapError Failure.schema
      .ok (stored.toJson.render i.style)
    | .decode => do
      let stored ← i.parse StoredTable.read contents
      let table ← stored.restore.mapError Failure.schema
      .ok (table.toJson.render i.style)
    | .count physical => do
      let tree ← i.parse readWhole contents
      match countIn? physical tree with
      | some n => .ok (toString n)
      | none => .error (.neither i.file)

end Invocation

/-- What the program prints, and the code that it exits with. -/
structure Outcome where
  exitCode : UInt32
  stdout : String
  stderr : String
deriving DecidableEq

/-- The text that names the program and its version. -/
def versionText : String := "schemaprops-cli 0.1.0"

def usageText : String :=
  "Usage: schemaprops [--pretty] encode <FILE>\n" ++
    "       schemaprops [--pretty] decode <FILE>\n" ++
    "       schemaprops [--pretty] count <FILE> [--physical <NAMES>]"

def Stop.outcome : Stop → Outcome
  | usage => ⟨2, "", usageText ++ "\n"⟩
  | version => ⟨0, versionText ++ "\n", ""⟩
  | help => ⟨0, usageText ++ "\n", ""⟩

def outcomeOf : Except Failure String → Outcome
  | .ok output => ⟨0, output ++ "\n", ""⟩
  | .error failure => ⟨1, "", "Error: " ++ failure.message ++ "\n"⟩

/-- Runs the program on arguments, given the text of each file that can be read as text. -/
def run (readText? : String → Option String) (args : List String) : Outcome :=
  match parse args with
  | .ok i => outcomeOf (i.answer (readText? i.file))
  | .error stop => stop.outcome

end FlatSchema.CommandLine
