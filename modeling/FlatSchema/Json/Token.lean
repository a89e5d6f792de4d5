import FlatSchema.Json.Numeral

namespace FlatSchema.Json

/-- Text that can be no token is `junk`, so that what comes before it can still be read. -/
inductive Token where
  | openArray
  | closeArray
  | openObject
  | closeObject
  | comma
  | colon
  | null
  | bool (value : Bool)
  | number (value : Numeral)
  /-- A quoted text, which has no value if an escape in it is half of a character. -/
  | text (value : Option String)
  | junk
deriving DecidableEq

/-- What a character or an escape adds to a quoted text. -/
inductive Piece where
  | char (c : Char)
  /-- Half of a character beyond 16 bits. -/
  | half (unit : Nat)
deriving DecidableEq

namespace Piece

/-- What a code unit of 16 bits stands for. -/
def ofUnit (unit : Nat) : Piece :=
  if 0xd800 ≤ unit && unit < 0xe000 then .half unit else .char (Char.ofNat unit)

/-- Puts halves together. A first half must be followed by a second one. -/
def join : List Piece → Option (List Char)
  | [] => some []
  | .char c :: rest => (join rest).map (c :: ·)
  | .half first :: .half second :: rest =>
    if first < 0xdc00 && 0xdc00 ≤ second then
      let c := Char.ofNat (0x10000 + (first - 0xd800) * 0x400 + (second - 0xdc00))
      (join rest).map (c :: ·)
    else none
  | .half _ :: _ => none

end Piece

/-- Where the scanner stands. What it has read of an unfinished token comes last character first. -/
inductive Scan where
  | between
  | word (read : List Char)
  | text (read : List Piece)
  | escape (read : List Piece)
  /-- Inside an escape of four hexadecimal digits, with the count and value of those read. -/
  | unicode (read : List Piece) (digits value : Nat)
  /-- The rest of the text can no longer be read. -/
  | lost
deriving DecidableEq

def isBlank (c : Char) : Bool := c == ' ' || c == '\t' || c == '\n' || c == '\r'

/-- The token that is one character. -/
def mark? (c : Char) : Option Token :=
  if c = '[' then some .openArray
  else if c = ']' then some .closeArray
  else if c = '\x7b' then some .openObject
  else if c = '\x7d' then some .closeObject
  else if c = ',' then some .comma
  else if c = ':' then some .colon
  else none

/-- The token of a run of characters without blanks, marks and quotes. -/
def wordToken (cs : List Char) : Token :=
  if cs = "null".toList then .null
  else if cs = "true".toList then .bool true
  else if cs = "false".toList then .bool false
  else match Numeral.ofChars? cs with
    | some n => .number n
    | none => .junk

/-- The character that a letter after a backslash stands for. -/
def escaped? (c : Char) : Option Char :=
  if c = '"' || c = '\\' || c = '/' then some c
  else if c = 'b' then some '\x08'
  else if c = 'f' then some '\x0c'
  else if c = 'n' then some '\n'
  else if c = 'r' then some '\r'
  else if c = 't' then some '\t'
  else none

def hexValue? (c : Char) : Option Nat :=
  if c.isDigit then some (c.toNat - '0'.toNat)
  else if 'a' ≤ c && c ≤ 'f' then some (c.toNat - 'a'.toNat + 10)
  else if 'A' ≤ c && c ≤ 'F' then some (c.toNat - 'A'.toNat + 10)
  else none

/-- The scanner, with the tokens found so far, the last one first. -/
structure Scanner where
  scan : Scan
  found : List Token
deriving DecidableEq

namespace Scanner

def start : Scanner := ⟨.between, []⟩

def emit (s : Scanner) (token : Token) : Scanner := ⟨.between, token :: s.found⟩

/-- Gives up at a character that no quoted text can hold. -/
def lose (s : Scanner) : Scanner := ⟨.lost, .junk :: s.found⟩

/-- A character outside of quoted texts, where no word is being read. -/
def between (s : Scanner) (c : Char) : Scanner :=
  if isBlank c then ⟨.between, s.found⟩
  else if c = '"' then ⟨.text [], s.found⟩
  else match mark? c with
    | some token => s.emit token
    | none => ⟨.word [c], s.found⟩

def endsWord (c : Char) : Bool := isBlank c || c == '"' || (mark? c).isSome

def step (s : Scanner) (c : Char) : Scanner :=
  match s.scan with
  | .between => s.between c
  | .word read =>
    if endsWord c then (s.emit (wordToken read.reverse)).between c else ⟨.word (c :: read), s.found⟩
  | .text read =>
    if c = '"' then s.emit (.text ((Piece.join read.reverse).map String.ofList))
    else if c = '\\' then ⟨.escape read, s.found⟩
    else if c < ' ' then s.lose
    else ⟨.text (.char c :: read), s.found⟩
  | .escape read =>
    if c = 'u' then ⟨.unicode read 0 0, s.found⟩
    else match escaped? c with
      | some d => ⟨.text (.char d :: read), s.found⟩
      | none => s.lose
  | .unicode read digits value =>
    match hexValue? c with
    | some v =>
      if digits = 3 then ⟨.text (Piece.ofUnit (16 * value + v) :: read), s.found⟩
      else ⟨.unicode read (digits + 1) (16 * value + v), s.found⟩
    | none => s.lose
  | .lost => s

/-- The tokens when the text is at its end. -/
def tokens (s : Scanner) : List Token :=
  match s.scan with
  | .between => s.found.reverse
  | .word read => (wordToken read.reverse :: s.found).reverse
  | .lost => s.found.reverse
  | _ => (.junk :: s.found).reverse

end Scanner

def tokensOf (cs : List Char) : List Token := (cs.foldl Scanner.step .start).tokens

end FlatSchema.Json
