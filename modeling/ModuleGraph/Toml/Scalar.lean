import ModuleGraph.Text.Numeral

/-!
# Numbers, truth values and points in time

Which words of a TOML document are values. Underscores may stand between digits, whole
numbers have 64 bits, and dates are days of the calendar. A number with a fraction or an
exponent is not rounded to the infinite unless it is negative.
-/

namespace ModuleGraph.Toml

/-- The digits of a numeral without the underscores between them; none if an underscore does
not stand between two digits, or something else is there. -/
def ungrouped? (base : Nat) (cs : List Char) : Option (List Char) :=
  let groups := cs.splitOn '_'
  if groups.all fun g => !g.isEmpty && g.all (Text.isDigitTo base) then some groups.flatten
  else none

/-- Digits with underscores between them. -/
def isGrouped (cs : List Char) : Bool := (ungrouped? 10 cs).isSome

/-- Digits of a decimal number, and no zero before others. -/
def isWhole (cs : List Char) : Bool := isGrouped cs && (cs.head? != some '0' || cs == ['0'])

/-- A word without the sign before it, and whether that is a minus. -/
def unsigned : List Char → Bool × List Char
  | '-' :: rest => (true, rest)
  | '+' :: rest => (false, rest)
  | cs => (false, cs)

/-- A numeral to that base, below `bound`. -/
def isBelow (bound base : Nat) (cs : List Char) : Bool :=
  (ungrouped? base cs).any fun digits => Text.numeral base digits < bound

/-- Whole numbers without a sign are less than this. -/
def integerBound : Nat := Nat.pow 2 63

/-- A whole number of 64 bits. -/
def isInteger (cs : List Char) : Bool :=
  match cs with
  | '0' :: 'x' :: digits => isBelow integerBound 16 digits
  | '0' :: 'o' :: digits => isBelow integerBound 8 digits
  | '0' :: 'b' :: digits => isBelow integerBound 2 digits
  | _ =>
    let (negative, digits) := unsigned cs
    isWhole digits && isBelow (if negative then integerBound + 1 else integerBound) 10 digits

/-- The characters of decimal digits with underscores between them. -/
def isGroupChar (c : Char) : Bool := c.isDigit || c == '_'

/-- What an exponent stands for. -/
def exponent? : List Char → Option Int
  | e :: rest =>
    if e == 'e' || e == 'E' then
      let (negative, digits) := unsigned rest
      (ungrouped? 10 digits).map fun ds =>
        let n := Text.numeral 10 ds
        if negative then -n else n
    else none
  | [] => none

/-- The number of these digits with a power of ten is not rounded to the infinite. It is
computed only if the number of its digits does not tell. -/
def isFinite (digits : List Char) (exponent : Int) : Bool :=
  let significant := digits.dropWhile (· == '0')
  let n := Text.numeral 10 significant
  let length := significant.length + exponent
  if n = 0 || length < 309 then true
  else if 309 < length then false
  else if exponent < 0 then n < Text.infinite * Nat.pow 10 (-exponent).toNat
  else n * Nat.pow 10 exponent.toNat < Text.infinite

/-- A number with the whole part `whole`, and with what follows it. -/
def isFractional (negative : Bool) (whole rest : List Char) : Bool :=
  let (fraction, tail) :=
    match rest with
    | '.' :: rest => (rest.takeWhile isGroupChar, rest.dropWhile isGroupChar)
    | _ => (['0'], rest)
  let exponent := if tail.isEmpty && rest.head? == some '.' then some 0 else exponent? tail
  isWhole whole && isGrouped fraction && exponent.any fun e =>
    let places := fraction.filter Char.isDigit
    negative || isFinite (whole.filter Char.isDigit ++ places) (e - places.length)

/-- A number with a fraction or an exponent, an infinity, or no number. -/
def isFloat (cs : List Char) : Bool :=
  let (negative, body) := unsigned cs
  body == "inf".toList || body == "nan".toList ||
    isFractional negative (body.takeWhile isGroupChar) (body.dropWhile isGroupChar)

/-- Exactly `n` digits, which write a number from `low` to `high`. -/
def isField (n low high : Nat) (cs : List Char) : Bool :=
  cs.length == n && cs.all Char.isDigit &&
    let value := Text.numeral 10 cs
    low ≤ value && value ≤ high

/-- The year has 366 days. -/
def isLeap (year : Nat) : Bool := year % 4 == 0 && (year % 100 != 0 || year % 400 == 0)

/-- The number of days of a month. -/
def monthLength (year month : Nat) : Nat :=
  if month = 2 then if isLeap year then 29 else 28
  else if month ∈ [4, 6, 9, 11] then 30 else 31

/-- A day of the calendar, `year-month-day`. -/
def isDate (cs : List Char) : Bool :=
  match cs.splitOn '-' with
  | [year, month, day] =>
    isField 4 0 9999 year && isField 2 1 12 month &&
      isField 2 1 (monthLength (Text.numeral 10 year) (Text.numeral 10 month)) day
  | _ => false

/-- Hours, minutes and seconds, the last with a fraction or without. -/
def isTime (cs : List Char) : Bool :=
  match cs.splitOn ':' with
  | [hour, minute, second] =>
    isField 2 0 23 hour && isField 2 0 59 minute &&
      match second.splitOn '.' with
      | [whole] => isField 2 0 60 whole
      | [whole, fraction] => isField 2 0 60 whole && !fraction.isEmpty && fraction.all Char.isDigit
      | _ => false
  | _ => false

/-- The distance from universal time. -/
def isOffset : List Char → Bool
  | ['Z'] => true
  | ['z'] => true
  | sign :: rest =>
    (sign == '+' || sign == '-') &&
      match rest.splitOn ':' with
      | [hour, minute] => isField 2 0 23 hour && isField 2 0 59 minute
      | _ => false
  | [] => false

/-- The characters of a time without its offset. -/
def isTimeChar (c : Char) : Bool := c.isDigit || c == ':' || c == '.'

/-- A date, a time, or both, then with an offset or without. -/
def isMoment (cs : List Char) : Bool :=
  isDate cs || isTime cs ||
    isDate (cs.take 10) &&
      match cs.drop 10 with
      | separator :: rest =>
        (separator == 'T' || separator == 't' || separator == ' ') &&
          isTime (rest.takeWhile isTimeChar) &&
            let offset := rest.dropWhile isTimeChar
            offset.isEmpty || isOffset offset
      | [] => false

/-- A word that is a value. -/
def isScalar (cs : List Char) : Bool :=
  cs == "true".toList || cs == "false".toList || isInteger cs || isFloat cs || isMoment cs

end ModuleGraph.Toml
