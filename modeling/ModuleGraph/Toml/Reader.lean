import ModuleGraph.Text.Split
import ModuleGraph.Toml.Basic
import ModuleGraph.Toml.Token

/-!
# Reading TOML documents

A document is a list of statements, each on lines of its own: a key with its value, or the
header of the table to which the keys after it belong. Within brackets or braces a statement
goes on over the end of a line.

## Implementation notes

The arrays and inline tables that are still open are kept in a list, innermost first. Keys
are read as their tokens first and cut at the dots once they are complete.
-/

namespace ModuleGraph.Toml

/-- A part of a dotted key. -/
inductive KeyPart
  | name (s : String)
  | dot
deriving DecidableEq, Inhabited, Repr

/-- The parts that words separated by dots consist of. -/
def KeyPart.ofPieces : List String → List KeyPart
  | [] => []
  | [piece] => if piece = "" then [] else [.name piece]
  | piece :: rest => (if piece = "" then [] else [.name piece]) ++ .dot :: ofPieces rest

/-- The parts of a token that may stand in a key. -/
def KeyPart.ofToken? : Token → Option (List KeyPart)
  | .text s false => some [.name s]
  | .word s =>
    if s.toList.all fun c => isKeyChar c || c == '.' then some (ofPieces (Text.split '.' s))
    else none
  | _ => none

/-- The names of a dotted key: at least one, and a dot between any two. -/
def namesOf? : List KeyPart → Option (List String)
  | [.name s] => some [s]
  | .name s :: .dot :: rest => (namesOf? rest).map (s :: ·)
  | _ => none

/-- The number of brackets and braces a value may stand in, and of names in a key. -/
def deepest : Nat := 79

/-- The key that tokens write: the names it leads through, and the last one. -/
def keyOf? (tokens : List Token) : Option (List String × String) :=
  (tokens.mapM KeyPart.ofToken?).bind fun parts =>
    (namesOf? parts.flatten).bind fun names =>
      if names.length ≤ deepest then names.getLast?.map (names.dropLast, ·) else none

/-- A bracket or brace that is still open. -/
inductive Open
  /-- An array with its items so far, latest first. -/
  | array (items : List Value)
  /-- An inline table with its entries so far; the value of a key is being read. -/
  | braces (entries : Entries) (key : List String × String)
deriving Inhabited, Repr

/-- What comes next within a value. -/
inductive Reading
  /-- A value, or the end of an array. -/
  | value (within : List Open)
  /-- The key of an inline table, of which some tokens are read, latest first; the table may
  end here if it is its first. -/
  | key (first : Bool) (tokens : List Token) (entries : Entries) (within : List Open)
  /-- A value has ended: a comma, the end of what it stands in, or nothing. -/
  | ended (value : Value) (within : List Open)
deriving Inhabited, Repr

namespace Reading

/-- Opens one more bracket or brace. -/
def opened (within : List Open) (next : Reading) : Option Reading :=
  if within.length < deepest then some next else none

/-- What comes after a token, none if the token was not to come. -/
def step : Reading → Token → Option Reading
  | .value within, .text s _ => some (.ended (.text s) within)
  | .value within, .word s =>
    if isScalar s.toList then some (.ended (.scalar s) within) else none
  | .value within, .openBracket _ => opened within (.value (.array [] :: within))
  | .value within, .openBrace => opened within (.key true [] [] within)
  | .value (.array items :: within), .closeBracket _ =>
    some (.ended (.array items.reverse) within)
  | .value (.array items :: within), .lineEnd => some (.value (.array items :: within))
  | .key true [] entries within, .closeBrace => some (.ended (.table .braces entries) within)
  | .key _ tokens entries within, .equals =>
    (keyOf? tokens.reverse).map fun k => .value (.braces entries k :: within)
  | .key first tokens entries within, .text s multiline =>
    some (.key first (.text s multiline :: tokens) entries within)
  | .key first tokens entries within, .word s =>
    some (.key first (.word s :: tokens) entries within)
  | .ended v (.array items :: within), .comma => some (.value (.array (v :: items) :: within))
  | .ended v (.array items :: within), .closeBracket _ =>
    some (.ended (.array (v :: items).reverse) within)
  | .ended v (.array items :: within), .lineEnd => some (.ended v (.array items :: within))
  | .ended v (.braces entries k :: within), .comma =>
    (entries.assign k.1 k.2 v).map fun entries => .key false [] entries within
  | .ended v (.braces entries k :: within), .closeBrace =>
    (entries.assign k.1 k.2 v).map fun entries => .ended (.table .braces entries) within
  | _, _ => none

/-- The value that has been read, if nothing is missing. -/
def finished? : Reading → Option Value
  | .ended v [] => some v
  | _ => none

end Reading

/-- The value that tokens write. -/
def valueOf? (tokens : List Token) : Option Value :=
  (tokens.foldlM Reading.step (.value [])).bind Reading.finished?

/-- A token opens a bracket or brace. -/
def Token.opens : Token → Bool
  | .openBracket _ => true
  | .openBrace => true
  | _ => false

/-- A token closes a bracket or brace. -/
def Token.closes : Token → Bool
  | .closeBracket _ => true
  | .closeBrace => true
  | _ => false

/-- The statements of a document: its tokens cut at the ends of lines outside of the `depth`
brackets and braces that are open. -/
def statements (depth : Nat) : List Token → List (List Token)
  | [] => [[]]
  | t :: rest =>
    let depth := if t.opens then depth + 1 else if t.closes then depth - 1 else depth
    let found := statements depth rest
    if t = .lineEnd && depth = 0 then [] :: found
    else
      match found with
      | [] => [[t]]
      | s :: more => (t :: s) :: more

/-- A document that is read so far, and the table to which keys belong. -/
structure Document where
  entries : Entries
  current : List String
deriving Inhabited, Repr

namespace Document

/-- Nothing is read yet. -/
def empty : Document := ⟨[], []⟩

/-- Changes the table that a header leads to. -/
def changeAt (path : List String) (f : Entries → Option Entries) (entries : Entries) :
    Option Entries :=
  entries.change false (fun _ => f) .header path

/-- Reads the header of a table. -/
def header (d : Document) (key : List String × String) : Option Document :=
  (changeAt key.1 (Entries.openTable key.2) d.entries).map fun entries =>
    ⟨entries, key.1 ++ [key.2]⟩

/-- Reads the header of a table in double brackets. -/
def elementHeader (d : Document) (key : List String × String) : Option Document :=
  (changeAt key.1 (Entries.openElement key.2) d.entries).map fun entries =>
    ⟨entries, key.1 ++ [key.2]⟩

/-- Reads a key with its value. -/
def assign (d : Document) (key : List String × String) (v : Value) : Option Document :=
  (changeAt d.current (fun found => found.assign key.1 key.2 v) d.entries).map fun entries =>
    { d with entries }

/-- The tokens before the brackets that end a header. -/
def headerKey? (closing tokens : List Token) : Option (List String × String) :=
  if closing.isSuffixOf tokens then keyOf? (tokens.take (tokens.length - closing.length))
  else none

/-- Reads one statement. -/
def read (d : Document) (statement : List Token) : Option Document :=
  match statement with
  | [] => some d
  | .openBracket true :: .openBracket _ :: rest =>
    (headerKey? [.closeBracket true, .closeBracket false] rest).bind d.elementHeader
  | .openBracket false :: rest => (headerKey? [.closeBracket false] rest).bind d.header
  | _ =>
    match statement.span (· != .equals) with
    | (key, _ :: value) =>
      (keyOf? key).bind fun k => (valueOf? value).bind fun v => d.assign k v
    | _ => none

end Document

/-- The entries of a document, none if it is not well formed. A byte order mark at its
beginning does not count. -/
def ofText? (s : String) : Option Entries :=
  let cs := s.toList
  (tokens? (if cs.head? = some '\uFEFF' then cs.tail else cs)).bind fun tokens =>
    ((statements 0 tokens).foldlM Document.read .empty).map (·.entries)

end ModuleGraph.Toml
