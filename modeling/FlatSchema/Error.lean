import FlatSchema.Options
import FlatSchema.Text.Quoted

namespace FlatSchema

/-- The parts of a schema that refer to a column by its name. -/
inductive Referrer where
  | primaryKey
  | watermark
deriving DecidableEq

def Referrer.text : Referrer → String
  | primaryKey => "primary key"
  | watermark => "watermark"

/-- Why a schema, a column or a stored table is refused. -/
inductive SchemaError where
  /-- The entries of a column do not say what kind of column it is. -/
  | malformedColumn (index : Nat) (options : Options)
  | missingKey (key : String)
  | invalidType (text : String)
  /-- A column is to be encoded, but has no place among the columns. -/
  | missingIndex (name : String)
  | duplicateColumn (name : String)
  | unknownColumn (referrer : Referrer) (name : String)
  /-- The columns that are left for an index are used up. -/
  | columnLayout (index : Nat)
deriving DecidableEq

/-- What the text of an error begins with, before it names anything. -/
def SchemaError.opening : SchemaError → String
  | malformedColumn _ _ => "Failed to build non-physical column. Current index is "
  | missingKey _ => "Missing required option: "
  | invalidType _ => "Could not parse type descriptor: '"
  | missingIndex _ => "No column index assigned to non-physical column: "
  | duplicateColumn _ => "Duplicate column name: "
  | unknownColumn referrer _ => referrer.text ++ " references unknown column: "
  | columnLayout _ => "Physical fields do not line up with the stored column layout at index "

def SchemaError.detail : SchemaError → String
  | malformedColumn index options =>
    toString index ++ ", options are " ++ Text.quotedEntries options
  | missingKey key => key
  | invalidType text => text ++ "'"
  | missingIndex name => name
  | duplicateColumn name => name
  | unknownColumn _ name => name
  | columnLayout index => toString index

def SchemaError.message (e : SchemaError) : String := e.opening ++ e.detail

end FlatSchema
