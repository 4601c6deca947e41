/-!
# Numerals

Digits to a base up to sixteen, and the whole numbers written with them. A number may be too
large to be kept as a binary number of 64 bits.
-/

namespace ModuleGraph.Text

/-- The value of a digit or letter, counted on from nine. -/
def digitValue (c : Char) : Nat :=
  if c.isDigit then c.toNat - '0'.toNat
  else if 'a' ≤ c && c ≤ 'f' then c.toNat - 'a'.toNat + 10
  else if 'A' ≤ c && c ≤ 'F' then c.toNat - 'A'.toNat + 10
  else 16

/-- `c` is a digit to that base. -/
def isDigitTo (base : Nat) (c : Char) : Bool := digitValue c < base

/-- The number that digits to that base write, most significant first. -/
def numeral (base : Nat) (digits : List Char) : Nat :=
  digits.foldl (fun n c => base * n + digitValue c) 0

/-- The number that one or more digits to that base write; none if something else is there. -/
def numeral? (base : Nat) (digits : List Char) : Option Nat :=
  if !digits.isEmpty && digits.all (isDigitTo base) then some (numeral base digits) else none

/-- One digit more multiplies by the base. -/
theorem numeral_concat (base : Nat) (digits : List Char) (c : Char) :
    numeral base (digits ++ [c]) = base * numeral base digits + digitValue c := by
  simp [numeral]

/-- From here on binary numbers of 64 bits are rounded to the infinite. -/
def infinite : Nat := Nat.pow 2 1024 - Nat.pow 2 970

end ModuleGraph.Text
