/-!
# Settings tables

The value of a TOML document is a table of tables, arrays, texts and scalars. Tables come
about in four ways, and how a table came about decides what may still be added to it: a table
written in braces is closed, a table with a header of its own is not given a second one, and
dotted keys extend only tables that dotted keys have made.

## Implementation notes

An addition goes down the path of its key and rebuilds the tables on the way, so that a
failed one leaves nothing behind.
-/

namespace ModuleGraph.Toml

/-- How a table came about. -/
inductive Origin
  /-- The document, or a table with a header of its own. -/
  | header
  /-- The header of a table inside it. -/
  | implied
  /-- A dotted key. -/
  | dotted
  /-- Braces. -/
  | braces
deriving DecidableEq, Inhabited, Repr

/-- A value of a document. -/
inductive Value
  | text (s : String)
  /-- A number, a truth value or a point in time, as it is written. -/
  | scalar (written : String)
  /-- An array between brackets. -/
  | array (items : List Value)
  /-- The tables that headers in double brackets have made, latest first. -/
  | tables (items : List Value)
  | table (origin : Origin) (entries : List (String × Value))
deriving Inhabited, Repr

/-- Keys and their values in the order of their addition. -/
abbrev Entries := List (String × Value)

namespace Entries

/-- The value under a key. -/
def get? (entries : Entries) (key : String) : Option Value :=
  (entries.find? (·.1 == key)).map (·.2)

/-- The entries with another value under a key that is there. -/
def replace (entries : Entries) (key : String) (value : Value) : Entries :=
  entries.map fun e => if e.1 == key then (e.1, value) else e

/-- The entries with a new key at the end. -/
def append (entries : Entries) (key : String) (value : Value) : Entries :=
  entries ++ [(key, value)]

/-- A table that an addition may go through. Dotted keys go through no table that has a
header of its own. -/
def isOpen (dotted : Bool) (origin : Origin) : Bool :=
  match origin with
  | .header => !dotted
  | .implied => true
  | .dotted => true
  | .braces => false

/-- Changes the table that a path leads to, which `origin` says how it came about. Tables
that are missing on the way are made; of tables with double brackets the latest is meant. -/
def change (dotted : Bool) (f : Origin → Entries → Option Entries) (origin : Origin)
    (path : List String) (entries : Entries) : Option Entries :=
  match path with
  | [] => f origin entries
  | key :: rest =>
    match get? entries key with
    | none =>
      let made := if dotted then Origin.dotted else .implied
      (change dotted f made rest []).map fun inner => append entries key (.table made inner)
    | some (.table made inner) =>
      if isOpen dotted made then
        (change dotted f made rest inner).map fun inner => replace entries key (.table made inner)
      else none
    | some (.tables (.table made inner :: earlier)) =>
      (change dotted f made rest inner).map fun inner =>
        replace entries key (.tables (.table made inner :: earlier))
    | _ => none

/-- Adds a value under a dotted key, which ends in `key` after the keys of `path`. A key has
one value only, and a path of several keys ends in a table made by dotted keys. -/
def assign (path : List String) (key : String) (value : Value) (entries : Entries) :
    Option Entries :=
  change true
    (fun origin found =>
      if (origin == .dotted) == path.isEmpty || (get? found key).isSome then none
      else some (append found key value))
    .header path entries

/-- Gives the table under `key` a header of its own. -/
def openTable (key : String) (entries : Entries) : Option Entries :=
  match get? entries key with
  | none => some (append entries key (.table .header []))
  | some (.table .implied inner) => some (replace entries key (.table .header inner))
  | _ => none

/-- Adds one more table with double brackets under `key`. -/
def openElement (key : String) (entries : Entries) : Option Entries :=
  match get? entries key with
  | none => some (append entries key (.tables [.table .header []]))
  | some (.tables earlier) => some (replace entries key (.tables (.table .header [] :: earlier)))
  | _ => none

end Entries

end ModuleGraph.Toml
