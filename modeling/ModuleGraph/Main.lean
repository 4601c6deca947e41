import ModuleGraph.CommandLine.Run
import ModuleGraph.CommandLine.Snapshot

/-!
# The program

It reads the snapshot of a project from standard input, does what its arguments ask for, and
writes what comes of it.
-/

open ModuleGraph

/-- The text of a stream up to its end. -/
partial def readAll (input : IO.FS.Stream) (read : String) : IO String := do
  let line ← input.getLine
  if line.isEmpty then return read
  readAll input (read ++ line)

/-- Runs the program on the snapshot that standard input holds. -/
def main (arguments : List String) : IO UInt32 := do
  let snapshot ← readAll (← IO.getStdin) ""
  match Snapshot.ofText? snapshot with
  | none =>
    (← IO.getStderr).putStr "Error: no snapshot of a project on standard input\n"
    return 1
  | some disk =>
    let output := CommandLine.run disk arguments
    (← IO.getStdout).putStr output.stdout
    (← IO.getStderr).putStr output.stderr
    return output.code.toUInt32
