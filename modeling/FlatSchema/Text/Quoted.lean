import FlatSchema.SortedMap
import FlatSchema.Text.Hidden

namespace FlatSchema.Text

/-- The code point in lower-case hexadecimal between braces. -/
def codePointEscape (c : Char) : List Char :=
  ['\\', 'u', '\x7b'] ++ Nat.toDigits 16 c.toNat ++ ['\x7d']

/-- A character in quotes. Quotes, backslashes and four control characters are escaped by a letter
of their own, every other hidden character by its code point. -/
def quotedChar (c : Char) : List Char :=
  if c = '\x00' then ['\\', '0']
  else if c = '\t' then ['\\', 't']
  else if c = '\r' then ['\\', 'r']
  else if c = '\n' then ['\\', 'n']
  else if c = '"' then ['\\', '"']
  else if c = '\\' then ['\\', '\\']
  else if isHidden c then codePointEscape c
  else [c]

def quoted (s : String) : List Char := '"' :: s.toList.flatMap quotedChar ++ ['"']

/-- Entries in order, as `key: value` between braces. -/
def quotedEntries (m : SortedMap String String) : String :=
  let shown := m.entries.map (fun e => quoted e.1 ++ [':', ' '] ++ quoted e.2)
  String.ofList ('\x7b' :: [',', ' '].intercalate shown ++ ['\x7d'])

end FlatSchema.Text
