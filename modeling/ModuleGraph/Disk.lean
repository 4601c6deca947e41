import ModuleGraph.Path.Basic
import ModuleGraph.Source.Text

/-!
# The files of a project

Files, symbolic links and directories by their place, which is the list of names that leads
to them from the root. A path leads to a place if each segment before its end leads to a
directory; a link on the way is exchanged for its target.

## Implementation notes

A directory needs no entry of its own if something lies in it. Links may lead to one another,
so that only a limited number of them is followed for one path.
-/

namespace ModuleGraph

/-- What a file holds: its bytes, and the syntax tree that was made of them if there is one. -/
structure Contents where
  bytes : ByteArray
  tree : Option Source.Tree
deriving Inhabited

/-- What stands at a place. -/
inductive Entry
  | file (contents : Contents)
  /-- Another path, read from the directory of the link. -/
  | link (target : String)
  | directory
deriving Inhabited

/-- The entry is a directory. -/
def Entry.isDirectory : Entry → Bool
  | .directory => true
  | _ => false

/-- What the entry holds, if it is a file. -/
def Entry.contents? : Entry → Option Contents
  | .file contents => some contents
  | _ => none

/-- The names that lead from the root to a place. -/
abbrev Place := List String

/-- A tree of files, and the directory from which relative paths are read. -/
structure Disk where
  entries : List (Place × Entry)
  workingDirectory : Path
deriving Inhabited

namespace Disk

/-- What stands at a place. A place with something below it is a directory. -/
def at? (d : Disk) (place : Place) : Option Entry :=
  match d.entries.find? (·.1 == place) with
  | some e => some e.2
  | none =>
    if place.isEmpty || d.entries.any fun e => place.isPrefixOf e.1 then some .directory else none

/-- How many links are followed on the way of one path. -/
def mostLinks : Nat := 40

/-- The place to which segments lead from `here`, following `links` links at most. Only a
directory has segments after it, also if they take no step. -/
def follow (d : Disk) (links : Nat) (here : Place) (segments : List String) : Option Place :=
  match segments with
  | [] => some here
  | s :: rest =>
    if (d.at? here).any Entry.isDirectory then
      if Path.isIdle s then follow d links here rest
      else if s = ".." then follow d links here.dropLast rest
      else
        match d.at? (here ++ [s]) with
        | none => none
        | some (.link target) =>
          match links with
          | 0 => none
          | links + 1 =>
            follow d links (if Text.hasPrefix "/" target then [] else here)
              (Text.split '/' target ++ rest)
        | some _ => follow d links (here ++ [s]) rest
    else none
termination_by (links, segments.length)

/-- The segments of a path from the root on. -/
def segmentsOf (d : Disk) (p : Path) : List String :=
  if p.isAbsolute then p.segments else d.workingDirectory.segments ++ p.segments

/-- The place a path leads to. The empty path leads nowhere. -/
def locate (d : Disk) (p : Path) : Option Place :=
  if p.text = "" then none else d.follow mostLinks [] (d.segmentsOf p)

/-- What stands where a path leads to. -/
def find? (d : Disk) (p : Path) : Option Entry := (d.locate p).bind d.at?

/-- What a file holds. -/
def read? (d : Disk) (p : Path) : Option Contents := (d.find? p).bind Entry.contents?

/-- The path leads to a file. -/
def isFile (d : Disk) (p : Path) : Bool := (d.read? p).isSome

/-- The path leads to a directory. -/
def isDirectory (d : Disk) (p : Path) : Bool := (d.find? p).any Entry.isDirectory

/-- The path leads somewhere. -/
def contains (d : Disk) (p : Path) : Bool := (d.find? p).isSome

/-- The path itself is a link, wherever that leads to. -/
def isLink (d : Disk) (p : Path) : Bool :=
  let segments := d.segmentsOf p
  match segments.getLast?, d.follow mostLinks [] segments.dropLast with
  | some name, some here =>
    !Path.isIdle name && name != ".." &&
      match d.at? (here ++ [name]) with
      | some (.link _) => true
      | _ => false
  | _, _ => false

/-- The path of a place. -/
def pathOf (place : Place) : Path := Path.ofBody true place

/-- The entries below a place, with the names that lead to them from there. -/
def below (d : Disk) (place : Place) : List (Place × Entry) :=
  d.entries.filterMap fun e =>
    if place.isPrefixOf e.1 && place != e.1 then some (e.1.drop place.length, e.2) else none

/-- The disk with one more entry, in the directory that its path leads to or would. -/
def add (d : Disk) (p : Path) (e : Entry) : Disk :=
  let names := (d.segmentsOf p).filter fun s => !Path.isIdle s
  let place :=
    match d.follow mostLinks [] names.dropLast, names.getLast? with
    | some here, some name => here ++ [name]
    | _, _ => names
  { d with entries := d.entries ++ [(place, e)] }

/-- A disk with nothing on it but the directory from which paths are read. -/
def empty (workingDirectory : Path) : Disk :=
  ⟨[(workingDirectory.segments.filter fun s => !Path.isIdle s, .directory)], workingDirectory⟩

end Disk

end ModuleGraph
