import ModuleGraph.Path.Basic

/-!
# Going into paths and out of them

Paths that are read from a directory one step at a time: a name goes into it, and a climb
takes away the last step of its text, whatever that step is.
-/

namespace ModuleGraph.Path

/-- One step from the directory `p`; a climb out of a root stays there. -/
def into (p : Path) : Component → Path
  | .name s => p.join ⟨s⟩
  | .up => p.parent?.getD p
  | .here => p
  | .root => p

/-- The path to which `text` leads from the directory `p`. An absolute path stands for itself,
and so does a text without steps. -/
def goTo (p : Path) (text : String) : Path :=
  let target : Path := ⟨text⟩
  if target.isAbsolute || target.components.isEmpty then target
  else target.components.foldl into p

/-- The path and the directories it lies in, `n` of them at most. -/
def ascending : Nat → Path → List Path
  | 0, p => [p]
  | n + 1, p =>
    match p.parent? with
    | none => [p]
    | some q => p :: ascending n q

/-- The path and all directories it lies in, the innermost first. -/
def ancestors (p : Path) : List Path := ascending p.segments.length p

theorem head?_ancestors (p : Path) : p.ancestors.head? = some p := by
  unfold ancestors
  cases p.segments.length with
  | zero => rfl
  | succ n =>
    unfold ascending
    split <;> rfl

end ModuleGraph.Path
