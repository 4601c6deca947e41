import ModuleGraph.Json.Reader

/-!
# JSON texts with comments

Settings may be written with comments and with a comma after the last entry of a container.
Both are taken out of the text before it is read. A slash that begins no comment is taken for
a blank, and from there on the text is read as it stands.
-/

namespace ModuleGraph.Json.Relaxed

mutual

/-- The text without comments up to a slash that begins none, and the text after that. A
comment begins with two slashes or a number sign and ends with its line, or stands between a
slash with a star and a star with a slash; none begins in a string. -/
def uncommented : List Char → List Char × List Char
  | [] => ([], [])
  | '/' :: '/' :: rest => afterLine rest
  | '/' :: '*' :: rest => afterBlock rest
  | '/' :: rest => ([' '], rest)
  | '#' :: rest => afterLine rest
  | '"' :: rest =>
    let r := uncommentedString rest
    ('"' :: r.1, r.2)
  | c :: rest =>
    let r := uncommented rest
    (c :: r.1, r.2)

/-- The same from inside a string. -/
def uncommentedString : List Char → List Char × List Char
  | [] => ([], [])
  | '\\' :: c :: rest =>
    let r := uncommentedString rest
    ('\\' :: c :: r.1, r.2)
  | '"' :: rest =>
    let r := uncommented rest
    ('"' :: r.1, r.2)
  | c :: rest =>
    let r := uncommentedString rest
    (c :: r.1, r.2)

/-- The same from inside a comment that ends with its line. -/
def afterLine : List Char → List Char × List Char
  | [] => ([], [])
  | '\n' :: rest =>
    let r := uncommented rest
    ('\n' :: r.1, r.2)
  | _ :: rest => afterLine rest

/-- The same from inside a comment that ends with a star and a slash. -/
def afterBlock : List Char → List Char × List Char
  | [] => ([], [])
  | '*' :: '/' :: rest =>
    let r := uncommented rest
    (' ' :: r.1, r.2)
  | _ :: rest => afterBlock rest

end

/-- What follows is the end of a container. -/
def closes (cs : List Char) : Bool :=
  match cs.dropWhile isSpace with
  | c :: _ => c == ']' || c == '\x7d'
  | [] => false

mutual

/-- The text with blanks for the commas before the end of a container. -/
def withoutCommas : List Char → List Char
  | [] => []
  | '"' :: rest => '"' :: withoutCommasString rest
  | c :: rest => (if c == ',' && closes rest then ' ' else c) :: withoutCommas rest

/-- The same from inside a string. -/
def withoutCommasString : List Char → List Char
  | [] => []
  | '\\' :: c :: rest => '\\' :: c :: withoutCommasString rest
  | '"' :: rest => '"' :: withoutCommas rest
  | c :: rest => c :: withoutCommasString rest

end

/-- The text without comments and without commas before the end of a container. -/
def strict (cs : List Char) : List Char :=
  let r := uncommented cs
  withoutCommas r.1 ++ r.2

/-- The value as a text with comments writes it. -/
def raw? (s : String) : Option Raw := Raw.ofChars? (strict s.toList)

end ModuleGraph.Json.Relaxed
