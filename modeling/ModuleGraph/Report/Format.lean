/-!
# Formats of reports

A report is written in short lines, in columns, or as JSON.
-/

namespace ModuleGraph.Report

/-- How a report is written. -/
inductive Format
  | compact
  | table
  | json
deriving DecidableEq, Inhabited, Repr

/-- The format of that name. -/
def Format.ofName? : String → Option Format
  | "compact" => some .compact
  | "table" => some .table
  | "json" => some .json
  | _ => none

/-- Lines one below the other, each with its end. -/
def lines (ls : List String) : String := String.join (ls.map (· ++ "\n"))

/-- A text with blanks after it up to `width` characters. -/
def padded (width : Nat) (s : String) : String :=
  s ++ String.ofList (List.replicate (width - s.length) ' ')

/-- A padded text is no shorter than its width. -/
theorem le_length_padded (width : Nat) (s : String) : width ≤ (padded width s).length := by
  simp [padded]
  omega

end ModuleGraph.Report
