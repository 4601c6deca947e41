import ModuleGraph.Disk
import ModuleGraph.Json.Reader
import ModuleGraph.Path.Ascent

/-!
# Looking for files

A path names a file, the file it becomes with one of the known extensions, or a directory
with a main file. The package description of a directory may name its main file.

## Implementation notes

A description that cannot be read as JSON ends the search where it is met; it is not the same
as a directory without one.
-/

namespace ModuleGraph.Resolution

/-- Why a search ends before everything was tried. -/
inductive Stop
  /-- The specifier names a module of the runtime. -/
  | builtin (name : String)
  /-- Something on the way is at fault, or a rule says that nothing may be found. -/
  | refused
deriving DecidableEq, Inhabited, Repr

/-- What a search finds, if anything, unless it is stopped. -/
abbrev Search := Except Stop (Option Path)

/-- The first of two searches that finds something; the second is made only if the first
finds nothing and is not stopped. -/
def Search.orElse (first : Search) (second : Unit → Search) : Search :=
  match first with
  | .ok none => second ()
  | found => found

/-- The first of several searches that finds something. -/
def Search.firstOf {α : Type} (search : α → Search) : List α → Search
  | [] => .ok none
  | a :: rest => (search a).orElse fun _ => firstOf search rest

/-- How files are looked for. -/
structure Lookup where
  disk : Disk
  /-- The extensions that are tried for a path, with their dots. -/
  extensions : List String
  /-- The extensions that are tried in place of one. -/
  substitutes : List (String × List String)
  /-- The names of the main file of a directory. -/
  mainNames : List String
  /-- Package descriptions name main files, too. -/
  readsMains : Bool
  /-- The conditions that hold in package descriptions. -/
  conditions : List String
  /-- The runtime's own modules are known. -/
  knowsBuiltins : Bool

namespace Lookup

variable (l : Lookup)

/-- The path, if it leads to a file. -/
def file? (p : Path) : Option Path := if l.disk.isFile p then some p else none

/-- The path with text after it. -/
def extended (p : Path) (ext : String) : Path := ⟨p.text ++ ext⟩

/-- The file that a path becomes with one of the known extensions after it. -/
def withExtension? (p : Path) : Option Path :=
  l.extensions.findSome? fun ext => l.file? (extended p ext)

/-- The path without its extension and the dot before it. -/
def withoutExtension (p : Path) (ext : String) : Path :=
  ⟨String.ofList (p.text.toList.take (p.text.length - (ext.length + 1)))⟩

/-- The file that a path becomes with another extension in place of its own. -/
def substitute? (p : Path) : Option Path :=
  p.extension?.bind fun ext =>
    (l.substitutes.find? (·.1 == ext)).bind fun s =>
      s.2.findSome? fun other => l.file? (extended (withoutExtension p ext) ("." ++ other))

/-- The file of a path: with a substitute of its extension, as it stands, or with one more
extension. -/
def asFile? (p : Path) : Option Path :=
  (l.substitute? p).or ((l.file? p).or (l.withExtension? p))

/-- The main file of a directory. -/
def mainFile? (p : Path) : Option Path :=
  l.mainNames.findSome? fun name =>
    let q := p.into (.name name)
    (l.file? q).or (l.withExtension? q)

/-- The package description that lies in a directory. -/
def description (directory : Path) : Except Stop (Option Json) :=
  match (l.disk.read? (directory.join ⟨"package.json"⟩)).bind fun c =>
      String.fromUTF8? c.bytes with
  | none => .ok none
  | some s =>
    match Json.ofText? s with
    | none => .error .refused
    | some j => .ok (some j)

/-- The file that a package description names as the main one, in the directory `p`. -/
def namedMain? (p : Path) (description : Json) : Option Path :=
  ((description.get? "main").bind Json.string?).bind fun name =>
    let target := p.goTo name
    (l.asFile? target).or (l.mainFile? target)

/-- The file of a directory: the one its package description names, or the main file. -/
def asDirectory (p : Path) : Search :=
  if l.readsMains then
    (l.description p).map fun d => (d.bind (l.namedMain? p)).or (l.mainFile? p)
  else .ok (l.mainFile? p)

/-- The file of a path that was written as `written`. A slash at its end leaves directories
only. -/
def asFileOrDirectory (p : Path) (written : String) : Search :=
  let asFile := if Text.hasSuffix "/" written then none else l.asFile? p
  match asFile with
  | some q => .ok (some q)
  | none => if l.disk.isDirectory p then l.asDirectory p else .ok none

/-- The file of a path among installed packages, where directories come first. -/
def asDirectoryOrFile (p : Path) : Search :=
  (if l.disk.isDirectory p then l.asDirectory p else .ok none).orElse fun _ => .ok (l.asFile? p)

/-- The package a path belongs to: the directory of the nearest package description, and the
description. A path that is no directory belongs where the nearest directory above it does. -/
def package (p : Path) : Except Stop (Option (Path × Json)) :=
  go (p.ancestors.dropWhile fun q => !l.disk.isDirectory q)
where
  /-- The first of these directories with a package description. -/
  go : List Path → Except Stop (Option (Path × Json))
    | [] => .ok none
    | q :: rest =>
      match l.description q with
      | .error stop => .error stop
      | .ok (some d) => .ok (some (q, d))
      | .ok none => go rest

end Lookup

end ModuleGraph.Resolution
