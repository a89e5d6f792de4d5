namespace FlatSchema

/-- A document to be written. None of the forms needs a number or a null. -/
inductive Json where
  | bool (value : Bool)
  | text (value : String)
  | array (items : List Json)
  | object (members : List (String × Json))

namespace Json

/-- The styles differ in the blanks between tokens only. -/
inductive Style where
  | compact
  | pretty
deriving DecidableEq

/-- What stands before an item or a closing bracket at a depth. -/
def Style.line : Style → Nat → List Char
  | compact, _ => []
  | pretty, depth => '\n' :: List.replicate (2 * depth) ' '

def Style.colon : Style → List Char
  | compact => [':']
  | pretty => [':', ' ']

/-- One character inside a quoted text. Only quotes, backslashes and control characters below the
space are escaped. -/
def printedChar (c : Char) : List Char :=
  if c = '"' then ['\\', '"']
  else if c = '\\' then ['\\', '\\']
  else if c = '\x08' then ['\\', 'b']
  else if c = '\t' then ['\\', 't']
  else if c = '\n' then ['\\', 'n']
  else if c = '\x0c' then ['\\', 'f']
  else if c = '\r' then ['\\', 'r']
  else if c < ' ' then
    ['\\', 'u', '0', '0', Nat.digitChar (c.toNat / 16), Nat.digitChar (c.toNat % 16)]
  else [c]

def printedText (s : String) : List Char := '"' :: s.toList.flatMap printedChar ++ ['"']

/-- A comma before every item but the first. -/
def comma (first : Bool) : List Char := if first then [] else [',']

mutual

/-- The text of a document that starts at a depth. -/
def print (style : Style) (depth : Nat) : Json → List Char
  | bool value => if value then "true".toList else "false".toList
  | text value => printedText value
  | array [] => ['[', ']']
  | array (x :: xs) =>
    '[' :: printItems style (depth + 1) true (x :: xs) ++ style.line depth ++ [']']
  | object [] => ['\x7b', '\x7d']
  | object (m :: ms) =>
    '\x7b' :: printMembers style (depth + 1) true (m :: ms) ++ style.line depth ++ ['\x7d']

def printItems (style : Style) (depth : Nat) (first : Bool) : List Json → List Char
  | [] => []
  | x :: xs =>
    comma first ++ style.line depth ++ print style depth x ++ printItems style depth false xs

def printMembers (style : Style) (depth : Nat) (first : Bool) : List (String × Json) → List Char
  | [] => []
  | (key, x) :: ms =>
    comma first ++ style.line depth ++ printedText key ++ style.colon ++ print style depth x ++
      printMembers style depth false ms

end

def render (style : Style) (j : Json) : String := String.ofList (print style 0 j)

def texts (values : List String) : Json := array (values.map text)

end Json

end FlatSchema
