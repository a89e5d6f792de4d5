import FlatSchema.Json.Reader

namespace FlatSchema.Json

/-- Takes the decimal number at the end of a text that is given last character first. -/
def lastNumber? (cs : List Char) : Option (Nat × List Char) :=
  let (digits, rest) := cs.span Char.isDigit
  if digits.isEmpty then none else some (Nat.ofDigitChars 10 digits.reverse 0, rest)

/-- Takes a text off the end of a text that is given last character first. -/
def lastWord? (word : String) (cs : List Char) : Option (List Char) :=
  word.toList.reverse.isPrefixOf? cs

/-- The place of an error, in which its report ends, as ` at line 3 column 7`. -/
structure Position where
  line : Nat
  column : Nat
deriving DecidableEq

namespace Position

def largest : Nat := 18446744073709551615

def text (p : Position) : String :=
  " at line " ++ toString p.line ++ " column " ++ toString p.column

/-- Splits a message that ends in a place into what comes before and the place. -/
def split? (message : String) : Option (String × Position) := do
  let (column, rest) ← lastNumber? message.toList.reverse
  let rest ← lastWord? " column " rest
  let (line, rest) ← lastNumber? rest
  let rest ← lastWord? " at line " rest
  if line ≤ largest ∧ column ≤ largest then some (String.ofList rest.reverse, ⟨line, column⟩) else none

/-- Takes the text of a place off the end of a report. -/
def dropFrom (p : Position) (report : String) : String :=
  match lastWord? p.text report.toList.reverse with
  | some rest => String.ofList rest.reverse
  | none => report

end Position

/-- A message without its place. There is no line 0, so a place there that the message lends is not
reported, unless the error has a place of its own in the document. What is left of the report may
end in that place once more. -/
def withoutPlace (placed : Bool) (message : String) : String :=
  match Position.split? message with
  | some (rest, p) => if placed || p.line != 0 then rest else p.dropFrom rest
  | none => message

/-- The message of an error, if it has one of its own and its opening is whole. An error inside of
the root value is reported with its place, an error of the root value itself is not. -/
def ReadError.message? (placed : Bool) : ReadError → Option String
  | malformed => none
  | rejected cause =>
    let message := withoutPlace placed cause.message
    if startsWith cause.opening message then some message else none

end FlatSchema.Json
