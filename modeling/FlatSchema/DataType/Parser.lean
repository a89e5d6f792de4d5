import FlatSchema.DataType
import FlatSchema.Text.Blank

namespace FlatSchema

open Text

namespace DataType

def maxArgument : Nat := 4294967295

/-- An argument: a plus sign or none, then decimal digits. -/
def argument? (cs : List Char) : Option Nat :=
  let digits := match cs with
    | '+' :: rest => rest
    | _ => cs
  if !digits.isEmpty && digits.all Char.isDigit then
    let value := Nat.ofDigitChars 10 digits 0
    if value ≤ maxArgument then some value else none
  else none

/-- Splits `NAME (a, b)` into its name and its arguments; without parentheses there are none. -/
def nameAndArguments? (body : List Char) : Option (List Char × List Nat) :=
  match body.span (· != '(') with
  | (name, []) => some (trim name, [])
  | (name, _ :: rest) => do
    let inner ← [')'].isSuffixOf? (trimEnd rest)
    let arguments ← (inner.splitOn ',').mapM (fun cs => argument? (trim cs))
    some (trim name, arguments)

/-- A precision or scale fits into a byte. -/
def narrow? (n : Nat) : Option UInt8 :=
  if n ≤ 255 then some (UInt8.ofNat n) else none

/-- A timestamp that is followed by the words for a local time zone. -/
def zoned? (name : List Char) (arguments : List Nat) : Option DataType :=
  match String.ofList name, arguments with
  | "TIMESTAMP", [] => some (.timestampLtz 6)
  | "TIMESTAMP", [p] => (narrow? p).map .timestampLtz
  | _, _ => none

def named? (name : List Char) (arguments : List Nat) : Option DataType :=
  match String.ofList name, arguments with
  | "BOOLEAN", [] => some .boolean
  | "TINYINT", [] => some .tinyInt
  | "SMALLINT", [] => some .smallInt
  | "INT", [] => some .int
  | "INTEGER", [] => some .int
  | "BIGINT", [] => some .bigInt
  | "FLOAT", [] => some .float
  | "DOUBLE", [] => some .double
  | "STRING", [] => some .string
  | "VARCHAR", [n] => some (canonical (.varchar (UInt32.ofNat n)))
  | "CHAR", [n] => some (.char (UInt32.ofNat n))
  | "BYTES", [] => some .bytes
  | "VARBINARY", [n] => if n = unboundedLength.toNat then some .bytes else none
  | "DECIMAL", [] => some (.decimal 10 0)
  | "DECIMAL", [p] => (narrow? p).map (.decimal · 0)
  | "DECIMAL", [p, s] => do
    let precision ← narrow? p
    let scale ← narrow? s
    some (.decimal precision scale)
  | "DATE", [] => some .date
  | "TIMESTAMP", [] => some (.timestamp 6)
  | "TIMESTAMP", [p] => (narrow? p).map .timestamp
  | "TIMESTAMP_LTZ", [] => some (.timestampLtz 6)
  | "TIMESTAMP_LTZ", [p] => (narrow? p).map .timestampLtz
  | _, _ => none

/-- What stands before closing words, which need a blank before them. -/
def beforeWords? (words body : List Char) : Option (List Char) := do
  let rest ← words.isSuffixOf? body
  if rest.getLast?.any isBlank then some (trimEnd rest) else none

/-- Reads a type in upper case without its nullability. -/
def ofBody? (body : List Char) : Option DataType :=
  match beforeWords? "WITH LOCAL TIME ZONE".toList body with
  | some rest => do
    let (name, arguments) ← nameAndArguments? rest
    zoned? name arguments
  | none => do
    let (name, arguments) ← nameAndArguments? body
    named? name arguments

end DataType

namespace TypeDescriptor

/-- The form in which a text is read: trimmed and in upper case, as far as it is ASCII. -/
def normalized (text : String) : List Char := (trim text.toList).map Char.toUpper

/-- Reads a type descriptor in any of its spellings: in either case, with blanks around every part,
by the aliases of its name and without its default arguments. -/
def ofText? (text : String) : Option TypeDescriptor :=
  match DataType.beforeWords? "NOT NULL".toList (normalized text) with
  | some body => (DataType.ofBody? body).map (make · false)
  | none => (DataType.ofBody? (normalized text)).map (make · true)

end TypeDescriptor

end FlatSchema
