import ModuleGraph.Graph.Build
import ModuleGraph.Resolution.Aliases

/-!
# Resolving specifiers on disk

What a specifier names in a file: first what the aliases of the project say, then by its
form a file, a name for use inside the package, a module of the runtime or a package.

## Implementation notes

A path that is found lies in a package or in none. If the description of that package cannot
be read, nothing is found.
-/

namespace ModuleGraph.Resolution

/-- How the files of a project are found. -/
structure Project where
  lookup : Lookup
  /-- The aliases of the project; none if their configuration is at fault. -/
  aliases : Option (Option ProjectAliases)

namespace Project

/-- How files are looked for in a project with these extensions. The extensions of emitted
modules also stand for those of their sources. -/
def lookupFor (disk : Disk) (table : Extension.Table) : Lookup :=
  { disk
    extensions := table.modules.map ("." ++ ·)
    substitutes :=
      [("js", ["ts", "tsx", "js"]), ("mjs", ["mts", "mjs"]), ("cjs", ["cts", "cjs"])]
    mainNames := ["index"]
    readsMains := true
    conditions := ["node", "import"]
    knowsBuiltins := true }

/-- The project with the directory `root`. -/
def ofRoot (disk : Disk) (root : Path) (table : Extension.Table) : Project :=
  let lookup := lookupFor disk table
  let file := root.join ⟨"tsconfig.json"⟩
  { lookup
    aliases :=
      if disk.isFile file then some (ProjectAliases.read? lookup file) else none }

variable (p : Project)

/-- What the aliases of the project say about a specifier. A candidate at fault does not
count. -/
def aliased (directory : Path) (specifier : String) : Search :=
  match p.aliases with
  | none => .ok none
  | some none => .error .refused
  | some (some a) =>
    .ok <| (a.candidates directory specifier).findSome? fun q =>
      (p.lookup.asFileOrDirectory q ".").toOption.join

/-- What the path of a specifier names by its form. -/
def byForm (directory : Path) (specifier : String) (suffix : Suffix) : Search :=
  match (Path.components ⟨specifier⟩).head? with
  | some .root => p.lookup.asFileOrDirectory ⟨specifier⟩ specifier
  | some .here => p.lookup.relative directory specifier
  | some .up => p.lookup.relative directory specifier
  | _ =>
    if Text.hasPrefix "#" specifier then
      (p.lookup.internal directory specifier suffix).orElse fun _ =>
        p.lookup.inPackages directory specifier suffix
    else
      p.lookup.stopAtBuiltin specifier fun _ =>
        p.lookup.inPackages directory specifier suffix

/-- What the path of a specifier names in `directory`. -/
def search (directory : Path) (specifier : String) (suffix : Suffix) : Search :=
  (p.aliased directory specifier).orElse fun _ => p.byForm directory specifier suffix

/-- What a specifier names in `directory`. -/
def find (directory : Path) (specifier : String) : Search :=
  Search.ofWritten .none (p.search directory) specifier

/-- What a specifier names in a file. Only the directories of files with an absolute path are
known. -/
def resolve (file : Path) (specifier : String) : Resolution :=
  match file.parent?.filter Path.isAbsolute with
  | none => .nothing
  | some directory =>
    match p.find directory specifier with
    | .error (.builtin name) => .builtin name
    | .error .refused => .nothing
    | .ok none => .nothing
    | .ok (some q) =>
      match p.lookup.package q with
      | .ok _ => .file q
      | .error _ => .nothing

end Project

end ModuleGraph.Resolution
