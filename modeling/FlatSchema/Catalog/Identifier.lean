namespace FlatSchema

/-- The characters that no name may hold. -/
def isForbidden (c : Char) : Bool := c == '.' || c == '/' || c == '\\' || c == '\x00'

/-- Whether a text can name a database or a table. -/
def isName (text : String) : Bool := !text.isEmpty && !text.toList.any isForbidden

/-- A table is known by its database and its own name. Both name directories where a catalog lives
in files. -/
structure Identifier where
  database : String
  table : String
  isName_database : isName database
  isName_table : isName table
deriving DecidableEq

namespace Identifier

/-- Identifiers come in the order of their databases, those of one database in that of their
tables. -/
instance : Ord Identifier := ⟨compareLex (compareOn database) (compareOn table)⟩

instance : Std.TransOrd Identifier :=
  inferInstanceAs (Std.TransCmp (compareLex (compareOn database) (compareOn table)))

instance : Std.LawfulEqOrd Identifier where
  eq_of_compare {a b} h := by
    obtain ⟨hdatabase, htable⟩ := compareLex_eq_eq.mp h
    cases a
    cases b
    cases Std.LawfulEqOrd.eq_of_compare hdatabase
    cases Std.LawfulEqOrd.eq_of_compare htable
    rfl

theorem compare_eq_lt_iff {a b : Identifier} : compare a b = .lt ↔
    compare a.database b.database = .lt ∨
      a.database = b.database ∧ compare a.table b.table = .lt := by
  rw [← Std.LawfulEqOrd.compare_eq_iff_eq (a := a.database)]
  exact Ordering.then_eq_lt

/-- The database and the name with a dot between them. -/
def text (i : Identifier) : String := i.database ++ "." ++ i.table

def ofParts? (database table : String) : Option Identifier :=
  if h : isName database ∧ isName table then some ⟨database, table, h.1, h.2⟩ else none

/-- Splits a text at its first dot. -/
def split? (text : String) : Option (String × String) :=
  match text.toList.span (· != '.') with
  | (database, _ :: table) => some (String.ofList database, String.ofList table)
  | (_, []) => none

end Identifier

end FlatSchema
