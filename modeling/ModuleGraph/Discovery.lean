import ModuleGraph.Disk
import ModuleGraph.Ignore.Rule
import ModuleGraph.Path.Absolute
import ModuleGraph.Settings
import ModuleGraph.Source.Grammar
import ModuleGraph.Text.Wildcard

/-!
# The source files of a project

Which files below a directory belong to a project: those that can be parsed, unless they are
installed packages, hidden, left out by an ignore file or excluded by the settings. What is
left out of a directory is all that lies in it.

## Implementation notes

Directories are not walked one by one. A file is found if none of the names that lead to it
is left out, so that what is said about a directory holds for all below it.
-/

namespace ModuleGraph

namespace Discovery

/-- The ignore files of a directory, the strongest first. -/
def ignoreFiles : List Place := [[".ignore"], [".gitignore"], [".git", "info", "exclude"]]

/-- The rules of an ignore file in a directory. -/
def rulesIn (d : Disk) (directory file : Place) : List Ignore.Rule :=
  ((d.read? (Disk.pathOf (directory ++ file))).map fun c => Ignore.rulesOf c.bytes).getD []

/-- The directories that a place lies in, the innermost first, each with the names that lead
from there to the place. -/
def enclosing (place : Place) : List (Place × List String) :=
  (List.range place.length).reverse.map fun n => (place.take n, place.drop n)

/-- What ignore files say about a place: a stronger file beats a weaker one in whichever
directory it lies, and of the same files the innermost that says something decides. -/
def verdict (d : Disk) (place : Place) (isDirectory : Bool) : Option Ignore.Verdict :=
  ignoreFiles.findSome? fun file =>
    (enclosing place).findSome? fun e =>
      Ignore.verdict (rulesIn d e.1 file) e.2 isDirectory

/-- The name hides what it names. -/
def isHidden (name : String) : Bool := Text.hasPrefix "." name

/-- The place is passed over: ignore files leave it out, or it is hidden and they do not keep
it. -/
def isPassedOver (d : Disk) (place : Place) (isDirectory : Bool) : Bool :=
  match verdict d place isDirectory with
  | some .leftOut => true
  | some .kept => false
  | none => isHidden (place.getLastD "")

/-- The file at these names below `root` is found: neither it nor any directory on the way to
it is passed over. -/
def isFound (d : Disk) (root names : Place) : Bool :=
  (List.range names.length).all fun n =>
    !isPassedOver d (root ++ names.take (n + 1)) (n + 1 < names.length)

/-- The path leads through installed packages. -/
def isInstalled (p : Path) : Bool := p.components.contains (.name "node_modules")

/-- One of the patterns stands for the path or for one of its steps. -/
def isExcluded (settings : Settings) (p : Path) : Bool :=
  (settings.exclude.getD []).any fun pattern =>
    Text.Wildcard.accepts pattern p.text ||
      p.components.any fun c => Text.Wildcard.accepts pattern c.text

/-- A path that was found is one of the project's source files. -/
def isSource (settings : Settings) (p : Path) : Bool :=
  !isInstalled p && !isExcluded settings p && Source.isParseable p

/-- The files and links found below the directory that `root` leads to; a `root` that is a
link itself is one of them. -/
def found (d : Disk) (root : Path) : List Path :=
  let place := (d.locate root).getD []
  let files := (d.below place).filter fun e => !e.2.isDirectory && isFound d place e.1
  (if d.isLink root then [root] else []) ++
    files.map fun e => root.join ⟨Text.join '/' e.1⟩

end Discovery

/-- Why no files are found under a path. -/
inductive DiscoveryFault
  /-- It leads to a file that cannot be parsed. -/
  | notSource (path : Path)
  /-- It leads nowhere. -/
  | missing (path : Path)
deriving DecidableEq, Inhabited, Repr

/-- The fault in words. -/
def DiscoveryFault.message : DiscoveryFault → String
  | .notSource path => path.text ++ " is not a TypeScript or JavaScript source file"
  | .missing path => path.text ++ " does not exist"

namespace Discovery

/-- The source files under a path in the order of their paths, or the one file it leads to. -/
def sources (d : Disk) (root : Path) (settings : Settings) :
    Except DiscoveryFault (List Path) :=
  if d.isFile root then
    if Source.isParseable root then .ok [root] else .error (.notSource root)
  else if d.isDirectory root then
    .ok (((found d root).filter (isSource settings)).mergeSort Path.le)
  else .error (.missing root)

end Discovery

end ModuleGraph
