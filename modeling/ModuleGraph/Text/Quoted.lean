import ModuleGraph.Text.Unprintable

/-!
# Texts quoted in messages

A message shows a text between double quotes. The quote and the backslash take a backslash
before them, the line and column controls and NUL have letters, and every other character
without a visible form is written by its code in hexadecimal digits.
-/

namespace ModuleGraph.Text

/-- The digits of `n` to base sixteen, in lower case and without leading zeros. -/
def hexDigits (n : Nat) : String := String.ofList (Nat.toDigits 16 n)

/-- How one character of a quoted text is written. -/
def quotedChar (c : Char) : String :=
  match c with
  | '"' => "\\\""
  | '\\' => "\\\\"
  | '\t' => "\\t"
  | '\r' => "\\r"
  | '\n' => "\\n"
  | '\x00' => "\\0"
  | c => if isUnprintable c then "\\u\x7b" ++ hexDigits c.toNat ++ "\x7d" else String.singleton c

/-- `s` between double quotes, with every character readable. -/
def quoted (s : String) : String :=
  "\"" ++ String.join (s.toList.map quotedChar) ++ "\""

end ModuleGraph.Text
