/-!
# ASCII letter case

Extensions and grammars are compared without regard to the case of the 26 ASCII letters.
Every other character stands for itself, so `ſ` is not an `s` and `K` is not a `k`.
-/

namespace ModuleGraph.Text

/-- `s` with the letters `A` to `Z` in lower case. -/
def lower (s : String) : String := s.map Char.toLower

/-- The texts differ at most in the case of their letters. -/
def eqIgnoringCase (s t : String) : Bool := lower s == lower t

/-- `s` without the dots it begins with. -/
def trimDots (s : String) : String :=
  String.ofList (s.toList.dropWhile (· == '.'))

@[simp] theorem toList_lower (s : String) : (lower s).toList = s.toList.map Char.toLower := by
  simp [lower]

@[simp] theorem toList_trimDots (s : String) :
    (trimDots s).toList = s.toList.dropWhile (· == '.') := by
  simp [trimDots]

end ModuleGraph.Text
