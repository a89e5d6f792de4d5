namespace FlatSchema.Json

/-- The parts of a numeral. A numeral has a point if it has digits after it. -/
structure Numeral where
  negative : Bool
  whole : List Char
  fraction : List Char
  /-- Whether the exponent is negative, and its digits. -/
  exponent : Option (Bool × List Char)
deriving DecidableEq

namespace Numeral

/-- The digits after a point, if there is a point, and the rest. -/
def fractionOf? : List Char → Option (List Char × List Char)
  | '.' :: cs =>
    let (digits, rest) := cs.span Char.isDigit
    if digits.isEmpty then none else some (digits, rest)
  | cs => some ([], cs)

/-- A sign, if there is one, and the rest. -/
def signOf : List Char → Bool × List Char
  | '-' :: cs => (true, cs)
  | '+' :: cs => (false, cs)
  | cs => (false, cs)

/-- The exponent that is all that is left, if there is one. -/
def exponentOf? : List Char → Option (Option (Bool × List Char))
  | [] => some none
  | e :: cs =>
    let (negative, digits) := signOf cs
    if (e == 'e' || e == 'E') && !digits.isEmpty && digits.all Char.isDigit then
      some (some (negative, digits))
    else none

/-- Reads a numeral. The whole part has no zero in front of other digits. -/
def ofChars? (cs : List Char) : Option Numeral := do
  let (negative, cs) := match cs with
    | '-' :: rest => (true, rest)
    | _ => (false, cs)
  let (whole, rest) := cs.span Char.isDigit
  if whole.isEmpty || (whole.head? == some '0' && whole.length > 1) then none
  let (fraction, rest) ← fractionOf? rest
  let exponent ← exponentOf? rest
  some ⟨negative, whole, fraction, exponent⟩

/-- The natural number that a numeral without sign, point and exponent stands for. -/
def toNat? (n : Numeral) : Option Nat :=
  if !n.negative && n.fraction.isEmpty && n.exponent.isNone then
    some (Nat.ofDigitChars 10 n.whole 0)
  else none

/-- The largest significand that is kept. -/
def maxSignificand : Nat := 18446744073709551615

/-- Appends digits to a significand while it stays within bounds, and counts those left over. -/
def absorb (significand : Nat) : List Char → Nat × Nat
  | [] => (significand, 0)
  | d :: ds =>
    let next := 10 * significand + (d.toNat - '0'.toNat)
    if next ≤ maxSignificand then absorb next ds else (significand, ds.length + 1)

/-- The nearest number with 53 binary digits, on a tie the one with an even last digit. -/
def roundToDouble (n : Nat) : Nat :=
  let unit := Nat.pow 2 (n.log2 - 52)
  let quotient := n / unit
  let rest := 2 * (n % unit)
  if rest < unit || (rest == unit && quotient % 2 == 0) then quotient * unit
  else (quotient + 1) * unit

/-- From here on a number rounds to infinity. -/
def infinite : Nat := Nat.pow 2 1024 - Nat.pow 2 970

/-- Whether the value is finite as a double. The value is the significand times a power of ten,
each rounded first. Digits that do not fit into the significand only scale it. -/
def isFinite (n : Numeral) : Bool :=
  let (significand, dropped) := absorb 0 n.whole
  let (significand, ignored) := absorb significand n.fraction
  let given : Int := match n.exponent with
    | some (negative, digits) =>
      let value : Int := Nat.ofDigitChars 10 digits 0
      if negative then -value else value
    | none => 0
  let exponent : Int := dropped - (n.fraction.length - ignored : Nat) + given
  significand == 0 || exponent < 0 ||
    (exponent ≤ 308 &&
      roundToDouble significand * roundToDouble (Nat.pow 10 exponent.toNat) < infinite)

end Numeral

end FlatSchema.Json
