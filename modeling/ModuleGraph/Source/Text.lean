import ModuleGraph.Source.Tree
import ModuleGraph.Text.Blank

/-!
# The text of nodes

A source is a sequence of bytes. The text of a node is the text its bytes encode, and the
empty text if they encode none, so that a stray byte elsewhere in the file does no harm.
-/

namespace ModuleGraph.Source

/-- The contents of a source file and the syntax tree that was made of them. -/
structure Document where
  bytes : ByteArray
  tree : Tree
deriving Inhabited

/-- The text that the bytes from `start` up to `stop` encode. -/
def textBetween (bytes : ByteArray) (start stop : Nat) : String :=
  (String.fromUTF8? (bytes.extract start stop)).getD ""

/-- The text of a node. -/
def textOf (bytes : ByteArray) (t : Tree) : String :=
  textBetween bytes t.label.start t.label.stop

/-- The characters between the first and the last one, if these are ASCII quotes or the
like; nothing else is a quoted text. -/
def unquoted (s : String) : String :=
  match s.toList with
  | first :: rest =>
    match rest.getLast? with
    | some last =>
      if first.toNat < 0x80 && last.toNat < 0x80 then String.ofList rest.dropLast else ""
    | none => ""
  | [] => ""

/-- `s` without the back quotes at both ends. -/
def trimBackQuotes (s : String) : String :=
  let inner := s.toList.dropWhile (· == '`')
  String.ofList (inner.reverse.dropWhile (· == '`')).reverse

/-- The value of a string, or of a template without substitutions. -/
def literal? (bytes : ByteArray) (t : Tree) : Option String :=
  if t.kind = "string" then some (unquoted (textOf bytes t))
  else if t.kind = "template_string" && (t.childOfKind? "template_substitution").isNone then
    some (trimBackQuotes (textOf bytes t))
  else none

/-- The name a node gives: the value of a literal, or the text as it stands. -/
def nameOf (bytes : ByteArray) (t : Tree) : String :=
  (literal? bytes t).getD (textOf bytes t)

end ModuleGraph.Source
