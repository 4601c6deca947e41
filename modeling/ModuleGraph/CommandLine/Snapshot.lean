import ModuleGraph.Disk
import ModuleGraph.Json.Reader

/-!
# Snapshots of projects

The files of a project as a JSON value, so that an analysis needs neither a disk nor a parser:
each file with its bytes and the syntax tree made of them, and each link with its target. A
tree is the list of its nodes in preorder, a node being its depth, its kind, whether it is
named, its field, and where its text begins and ends.
-/

namespace ModuleGraph

/-- The number that a value writes in digits. -/
def Json.nat? : Json → Option Nat
  | .number text => text.toNat?
  | _ => none

/-- A node of a tree with its depth. -/
def Source.Label.ofJson? : Json → Option (Nat × Source.Label)
  | .array [depth, kind, named, field, start, stop] => do
    let label : Source.Label :=
      { kind := ← kind.string?
        isNamed := (← named.nat?) == 1
        field := field.string?.bind Source.Field.ofName?
        start := ← start.nat?
        stop := ← stop.nat? }
    some (← depth.nat?, label)
  | _ => none

/-- A syntax tree. -/
def Source.Tree.ofJson? (j : Json) : Option Source.Tree :=
  (j.array?.bind fun rows => rows.mapM Source.Label.ofJson?).bind Source.Tree.ofPreorder?

namespace Snapshot

/-- The bytes that pairs of hexadecimal digits write. -/
def bytesOfHex? : List Char → Option (List UInt8)
  | [] => some []
  | high :: low :: rest =>
    (Text.numeral? 16 [high, low]).bind fun n => (bytesOfHex? rest).map (n.toUInt8 :: ·)
  | [_] => none

/-- The bytes of a file, given as a text under `key` or else in hexadecimal digits. -/
def bytes? (j : Json) (key : String) : Option ByteArray :=
  match (j.get? key).bind Json.string? with
  | some s => some s.toUTF8
  | none =>
    (((j.get? (key ++ "_hex")).bind Json.string?).bind fun s => bytesOfHex? s.toList).map fun bs =>
      ⟨bs.toArray⟩

/-- A file or a link. -/
def fileOrLink? (j : Json) : Option Entry :=
  match (j.get? "link").bind Json.string? with
  | some target => some (.link target)
  | none =>
    (bytes? j "source").map fun bytes =>
      .file ⟨bytes, (j.get? "tree").bind Source.Tree.ofJson?⟩

/-- A file or a link with its path. -/
def row? (j : Json) : Option (Path × Entry) :=
  ((j.get? "path").bind Json.string?).bind fun path => (fileOrLink? j).map fun e => (⟨path⟩, e)

/-- The files of a list in `directory`, from which paths are read. -/
def disk? (directory : Path) (files : Json) : Option Disk :=
  (files.array?.bind fun rows => rows.mapM row?).map fun rows =>
    rows.foldl (fun d r => d.add r.1 r.2) (Disk.empty directory)

/-- The files of a snapshot, which names its directory. -/
def ofText? (s : String) : Option Disk := do
  let j ← Json.ofText? s
  let directory ← (j.get? "directory").bind Json.string?
  disk? ⟨directory⟩ (← j.get? "files")

end Snapshot

end ModuleGraph
