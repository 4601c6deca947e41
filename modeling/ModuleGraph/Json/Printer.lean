import ModuleGraph.Json.Basic

/-!
# JSON on indented lines

Each item of an array and each member of an object stands on a line of its own, two columns
further in than its container. An empty container is written without a line break.
-/

namespace ModuleGraph.Json

/-- Four hexadecimal digits of a code below 65536. -/
def fourDigits (n : Nat) : String :=
  let digits := Nat.toDigits 16 n
  String.ofList (List.replicate (4 - digits.length) '0' ++ digits)

/-- How one character of a string is written. Quotes, backslashes and controls are escaped,
and every other character stands for itself. -/
def escapedChar (c : Char) : String :=
  match c with
  | '"' => "\\\""
  | '\\' => "\\\\"
  | '\x08' => "\\b"
  | '\x0c' => "\\f"
  | '\n' => "\\n"
  | '\r' => "\\r"
  | '\t' => "\\t"
  | c => if c.toNat < 0x20 then "\\u" ++ fourDigits c.toNat else String.singleton c

/-- A string as it is written. -/
def literal (s : String) : String := "\"" ++ String.join (s.toList.map escapedChar) ++ "\""

/-- A line break, and the columns of `depth` containers. -/
def lineBreak (depth : Nat) : String := String.ofList ('\n' :: List.replicate (2 * depth) ' ')

/-- Entries between brackets, each on a line of its own inside `depth` containers. -/
def bracketed (opening closing : String) (depth : Nat) (entries : List String) : String :=
  if entries.isEmpty then opening ++ closing
  else
    opening ++ lineBreak (depth + 1) ++ (("," ++ lineBreak (depth + 1)).intercalate entries) ++
      lineBreak depth ++ closing

mutual

/-- A value inside `depth` containers. -/
def renderAt (depth : Nat) : Json → String
  | .null => "null"
  | .bool value => if value then "true" else "false"
  | .number text => text
  | .string value => literal value
  | .array items => bracketed "[" "]" depth (renderItems (depth + 1) items)
  | .object members => bracketed "\x7b" "\x7d" depth (renderMembers (depth + 1) members)

/-- The items of an array. -/
def renderItems (depth : Nat) : List Json → List String
  | [] => []
  | item :: rest => renderAt depth item :: renderItems depth rest

/-- The members of an object. -/
def renderMembers (depth : Nat) : List (String × Json) → List String
  | [] => []
  | (key, value) :: rest =>
    (literal key ++ ": " ++ renderAt depth value) :: renderMembers depth rest

end

/-- A value as it stands in a report. -/
def render (j : Json) : String := renderAt 0 j

end ModuleGraph.Json
