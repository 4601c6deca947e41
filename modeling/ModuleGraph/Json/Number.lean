import ModuleGraph.Text.Numeral

/-!
# Numbers in JSON texts

A number is a sign, a whole part, a fraction and an exponent, of which only the whole part is
needed. It is in range if it is finite as a binary number of 64 bits.

## Implementation notes

Only the leading digits that fit into 64 bits count; digits of the whole part after them
count as zeros. These digits and the power of ten are each rounded to 53 bits before they
are multiplied, so that close to the greatest number the product decides and not the exact
value of the text.
-/

namespace ModuleGraph.Json

/-- A number without its sign: the digits before and after the point, and the exponent. -/
structure Decimal where
  whole : List Char
  fraction : List Char
  exponent : Int
deriving DecidableEq, Inhabited, Repr

namespace Decimal

/-- Digits, and no zero before others. -/
def isWhole (digits : List Char) : Bool :=
  digits == ['0'] || (!digits.isEmpty && digits.head? != some '0')

/-- An exponent, or nothing. -/
def exponent? : List Char → Option Int
  | [] => some 0
  | e :: rest =>
    if e = 'e' || e = 'E' then
      match rest with
      | '+' :: digits => (Text.numeral? 10 digits).map Int.ofNat
      | '-' :: digits => (Text.numeral? 10 digits).map fun n => -Int.ofNat n
      | digits => (Text.numeral? 10 digits).map Int.ofNat
    else none

/-- The number that a text writes. -/
def parse? (cs : List Char) : Option Decimal :=
  let unsigned := if cs.head? = some '-' then cs.tail else cs
  let whole := unsigned.takeWhile Char.isDigit
  if isWhole whole then
    match unsigned.dropWhile Char.isDigit with
    | '.' :: rest =>
      let fraction := rest.takeWhile Char.isDigit
      if fraction.isEmpty then none
      else (exponent? (rest.dropWhile Char.isDigit)).map (⟨whole, fraction, ·⟩)
    | rest => (exponent? rest).map (⟨whole, [], ·⟩)
  else none

/-- A significand with a power of ten. -/
structure Scaled where
  significand : Nat
  exponent : Int
deriving DecidableEq, Inhabited, Repr

/-- Significands are less than this. -/
def significandBound : Nat := Nat.pow 2 64

/-- The digits of a whole part: those that fit, and a factor of ten for each one after them. -/
def Scaled.withWhole (s : Scaled) : List Char → Scaled
  | [] => s
  | c :: rest =>
    let next := 10 * s.significand + Text.digitValue c
    if next < significandBound then withWhole { s with significand := next } rest
    else { s with exponent := s.exponent + (rest.length + 1 : Nat) }

/-- The digits of a fraction that fit. -/
def Scaled.withFraction (s : Scaled) : List Char → Scaled
  | [] => s
  | c :: rest =>
    let next := 10 * s.significand + Text.digitValue c
    if next < significandBound then withFraction ⟨next, s.exponent - 1⟩ rest else s

/-- The number as it is computed with. -/
def scaled (d : Decimal) : Scaled :=
  let s := (Scaled.withWhole ⟨0, 0⟩ d.whole).withFraction d.fraction
  { s with exponent := s.exponent + d.exponent }

/-- The whole number with at most 53 bits, and zeros after them, that is nearest to `n`; of two
the one whose last bit is zero. -/
def rounded (n : Nat) : Nat :=
  let unit := Nat.pow 2 (n.log2 - 52)
  let low := n / unit
  let rest := n % unit
  let up := unit < 2 * rest || (unit = 2 * rest && low % 2 = 1)
  (if up then low + 1 else low) * unit

/-- The greatest power of ten that is finite. -/
def greatestPower : Int := 308

/-- The number is finite. -/
def isFinite (d : Decimal) : Bool :=
  let s := d.scaled
  if greatestPower < s.exponent then s.significand = 0
  else if s.exponent < 0 then true
  else rounded s.significand * rounded (Nat.pow 10 s.exponent.toNat) < Text.infinite

end Decimal

end ModuleGraph.Json
