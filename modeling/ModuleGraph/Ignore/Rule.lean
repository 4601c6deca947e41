import ModuleGraph.Ignore.Glob
import ModuleGraph.Text.Blank
import ModuleGraph.Text.Split

/-!
# Rules of ignore files

Each line of an ignore file is a rule that leaves out some paths below its directory or keeps
them against an earlier rule. Of the rules of a file the last one that matches a path decides.
-/

namespace ModuleGraph.Ignore

/-- What rules say about a path. -/
inductive Verdict
  | leftOut
  | kept
deriving DecidableEq, Inhabited, Repr

/-- A line of an ignore file. -/
structure Rule where
  texts : Text.Regular UInt8
  verdict : Verdict
  /-- The rule is about directories and not about files. -/
  directoriesOnly : Bool
deriving Inhabited

/-- The pattern of a rule, as its line gives it. -/
structure Pattern where
  text : String
  verdict : Verdict
  /-- The pattern is read from the directory of the file also if it is one segment only. -/
  anchored : Bool
deriving DecidableEq, Inhabited, Repr

namespace Pattern

/-- A line without the blanks it ends in, unless a backslash keeps the last of them. -/
def trimmed (line : String) : String :=
  if Text.hasSuffix "\\ " line then line
  else String.ofList (Text.dropEndBlanks line.toList)

/-- The pattern of a line without its marks: a backslash takes away the meaning of a mark, an
exclamation mark keeps paths, and a slash anchors the pattern. -/
def ofLine (line : String) : Pattern :=
  match line.toList with
  | '\\' :: '!' :: rest => ⟨String.ofList ('!' :: rest), .leftOut, false⟩
  | '\\' :: '#' :: rest => ⟨String.ofList ('#' :: rest), .leftOut, false⟩
  | '!' :: '/' :: rest => ⟨String.ofList rest, .kept, true⟩
  | '!' :: rest => ⟨String.ofList rest, .kept, false⟩
  | '/' :: rest => ⟨String.ofList rest, .leftOut, true⟩
  | cs => ⟨String.ofList cs, .leftOut, false⟩

/-- The text without the slash that restricts it to directories, and without a backslash
before that slash. -/
def withoutSlash (text : String) : Option String :=
  match text.toList.reverse with
  | '/' :: '\\' :: rest => some (String.ofList rest.reverse)
  | '/' :: rest => some (String.ofList rest.reverse)
  | _ => none

/-- The text as it is matched against the whole of a path: a segment that is not anchored may
stand in any directory, and what lies in a directory is not the directory itself. -/
def widened (anchored : Bool) (text : String) : String :=
  let text :=
    if anchored || text.toList.contains '/' || text = "**" then text else "**/" ++ text
  if Text.hasSuffix "/**" text then text ++ "/*" else text

end Pattern

namespace Rule

/-- The rule of a line; blank lines, comments and faulty patterns are none. -/
def ofLine? (line : String) : Option Rule :=
  if Text.hasPrefix "#" line then none
  else
    let line := Pattern.trimmed line
    if line = "" then none
    else
      let p := Pattern.ofLine line
      let text := Pattern.withoutSlash p.text
      (Glob.compile? (Pattern.widened p.anchored (text.getD p.text))).map fun texts =>
        { texts, verdict := p.verdict, directoriesOnly := text.isSome }

/-- The rule matches the path with these bytes. -/
def applies (r : Rule) (path : List UInt8) (isDirectory : Bool) : Bool :=
  (!r.directoriesOnly || isDirectory) && r.texts.accepts path

end Rule

/-- The lines of a file up to the first that is no text. A byte order mark at its beginning
does not count. -/
def linesOf (bytes : ByteArray) : List String :=
  let lines := (bytes.toList.splitOn 0x0a).map fun line =>
    if line.getLast? = some 0x0d then line.dropLast else line
  let texts := (lines.map fun line => String.fromUTF8? ⟨line.toArray⟩).takeWhile Option.isSome
  match texts.filterMap id with
  | first :: rest => String.ofList (first.toList.dropWhile (· == '\uFEFF')) :: rest
  | [] => []

/-- The rules of a file. -/
def rulesOf (bytes : ByteArray) : List Rule := (linesOf bytes).filterMap Rule.ofLine?

/-- The bytes of the path of these names. -/
def pathBytes (names : List String) : List UInt8 := (Text.join '/' names).toUTF8.toList

/-- What the rules of a file say about the path of these names below its directory. -/
def verdict (rules : List Rule) (names : List String) (isDirectory : Bool) : Option Verdict :=
  (rules.reverse.find? (·.applies (pathBytes names) isDirectory)).map (·.verdict)

/-- A rule added at the end decides about the paths it matches. -/
theorem verdict_append_of_applies {rules : List Rule} {r : Rule} {names : List String}
    {isDirectory : Bool} (h : r.applies (pathBytes names) isDirectory = true) :
    verdict (rules ++ [r]) names isDirectory = some r.verdict := by
  simp [verdict, h]

end ModuleGraph.Ignore
