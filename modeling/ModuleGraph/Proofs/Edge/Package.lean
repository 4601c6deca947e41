import ModuleGraph.Edge.Request
import ModuleGraph.Proofs.Text.Cut

/-!
# The package of a bare specifier

Main statements: `Request.eq_splitAtMost`, `Request.packageSplit` and `Request.packageName_eq_iff`.
A specifier is cut into the segments of its name and all that follows them. The name of the package
and the path within it give the specifier back, but for a slash behind the name that nothing
follows. Two specifiers have one name exactly when they begin with the same segments, and the name
begins with a scope exactly when the specifier does.

## Implementation notes

A name always has a segment, and no segment has a slash. So a name is cut again into the
segments of which it was joined.
-/

namespace ModuleGraph

namespace Text

variable {sep : Char} {s before after : String}

/-- The first pieces of `s` and then all that follows them, in `n` pieces at most. -/
def splitAtMost (sep : Char) : Nat → String → List String
  | 0, _ => []
  | 1, s => [s]
  | n + 2, s =>
    match cutFirst sep s with
    | none => [s]
    | some (piece, rest) => piece :: splitAtMost sep (n + 1) rest

/-- What stands before the first separator is the first piece. -/
theorem split_of_cutFirst (h : cutFirst sep s = some (before, after)) :
    split sep s = before :: split sep after := by
  obtain ⟨hchars, hbefore⟩ := cutFirst_eq_some_iff.mp h
  have hcut : s = before ++ String.singleton sep ++ after := by
    rw [← String.toList_inj, hchars]
    simp
  rw [hcut, split_append_singleton, split_eq_singleton hbefore]
  rfl

theorem not_mem_of_cutFirst_eq_none (h : cutFirst sep s = none) : sep ∉ s.toList := by
  intro hmem
  obtain ⟨cs, ds, hcut, hcs⟩ := List.eq_append_cons_of_mem hmem
  rw [cutFirst, hcut, span_append_cons hcs] at h
  cases h

/-- Whatever follows the first pieces stays joined. -/
theorem splitAtMost_succ (n : Nat) (s : String) :
    splitAtMost sep (n + 1) s =
      (split sep s).take n ++
        if (split sep s).drop n = [] then [] else [join sep ((split sep s).drop n)] := by
  induction n generalizing s with
  | zero =>
      rw [splitAtMost, List.take_zero, List.drop_zero, if_neg (split_ne_nil sep s), join_split,
        List.nil_append]
  | succ n ih =>
      rw [splitAtMost]
      cases hcut : cutFirst sep s with
      | none => simp [split_eq_singleton (not_mem_of_cutFirst_eq_none hcut)]
      | some cut =>
          obtain ⟨piece, rest⟩ := cut
          rw [split_of_cutFirst hcut, List.take_succ_cons, List.drop_succ_cons, List.cons_append,
            ← ih]

end Text

namespace Request

variable {s t : String}

/-- The first segment of a specifier, or the first two, as many as there are, if it begins with a
scope. -/
def leading (s : String) : List String :=
  if Text.hasPrefix "@" s then (Text.split '/' s).take 2 else (Text.split '/' s).take 1

/-- A specifier is the name of a package alone, or followed by a slash, or by a slash and a path
that is not empty. -/
inductive PackageSplit (name : String) : String → Option String → Prop
  | alone : PackageSplit name name none
  | slashed : PackageSplit name (name ++ "/") none
  | within {path : String} (h : path ≠ "") : PackageSplit name (name ++ "/" ++ path) (some path)

theorem leading_eq_take (s : String) : leading s = (Text.split '/' s).take (nameLength s) := by
  rw [leading, nameLength]
  split <;> rfl

theorem packageName_eq_join (s : String) : packageName s = Text.join '/' (leading s) := by
  rw [packageName, leading_eq_take]

theorem nameLength_pos (s : String) : 0 < nameLength s := by
  rw [nameLength]
  split <;> decide

theorem leading_ne_nil (s : String) : leading s ≠ [] := by
  rw [leading_eq_take, Ne, List.take_eq_nil_iff, not_or]
  exact ⟨(nameLength_pos s).ne', Text.split_ne_nil '/' s⟩

/-- The name and the path within the package are what a cut into one piece more than the name
has gives. -/
theorem eq_splitAtMost (s : String) :
    let pieces := Text.splitAtMost '/' (nameLength s + 1) s
    packageName s = Text.join '/' (pieces.take (nameLength s)) ∧
      packageSubpath s = pieces[nameLength s]?.filter (· != "") := by
  intro pieces
  have hpieces : pieces = _ := Text.splitAtMost_succ (nameLength s) s
  rw [hpieces, packageName, packageSubpath]
  cases hrest : (Text.split '/' s).drop (nameLength s) with
  | nil =>
      rw [if_pos rfl, List.append_nil, List.take_take, Nat.min_self,
        List.getElem?_eq_none (List.length_take_le _ _)]
      exact ⟨rfl, rfl⟩
  | cons first rest =>
      have hlength : ((Text.split '/' s).take (nameLength s)).length = nameLength s := by
        apply List.length_take_of_le
        by_contra hlt
        rw [List.drop_of_length_le (by omega)] at hrest
        cases hrest
      rw [if_neg (List.cons_ne_nil first rest), List.take_left' hlength,
        List.getElem?_append_right (by omega), hlength, Nat.sub_self]
      refine ⟨rfl, ?_⟩
      dsimp only
      split
      · rename_i hempty
        rw [hempty]
        rfl
      · rename_i hpath
        rw [List.getElem?_cons_zero, Option.filter_some, if_pos (bne_iff_ne.mpr hpath)]

theorem PackageSplit.of_append (name path : String) :
    PackageSplit name (name ++ "/" ++ path) (if path = "" then none else some path) := by
  split
  · rename_i hempty
    rw [hempty, String.append_empty]
    exact .slashed
  · exact .within ‹_›

/-- No part of a specifier is lost but a slash that nothing follows. -/
theorem packageSplit (s : String) : PackageSplit (packageName s) s (packageSubpath s) := by
  have hcut := List.take_append_drop (nameLength s) (Text.split '/' s)
  rw [packageName, packageSubpath]
  cases hrest : (Text.split '/' s).drop (nameLength s) with
  | nil =>
      rw [hrest, List.append_nil] at hcut
      rw [hcut, Text.join_split]
      exact .alone
  | cons first rest =>
      have hname : (Text.split '/' s).take (nameLength s) ≠ [] :=
        leading_eq_take s ▸ leading_ne_nil s
      have hwhole : Text.join '/' ((Text.split '/' s).take (nameLength s)) ++ "/" ++
          Text.join '/' (first :: rest) = s := by
        calc
          _ = Text.join '/' ((Text.split '/' s).take (nameLength s) ++ first :: rest) :=
            (Text.join_append '/' hname (List.cons_ne_nil first rest)).symm
          _ = s := by rw [← hrest, hcut, Text.join_split]
      have hsplit := PackageSplit.of_append (Text.join '/' ((Text.split '/' s).take (nameLength s)))
        (Text.join '/' (first :: rest))
      rw [hwhole] at hsplit
      exact hsplit

/-- Specifiers have one name when they begin with the same segments. -/
theorem packageName_eq_iff : packageName s = packageName t ↔ leading s = leading t := by
  have hsplit : ∀ u, Text.split '/' (packageName u) = leading u := by
    intro u
    rw [packageName_eq_join]
    apply Text.split_join (leading_ne_nil u)
    intro p hp
    rw [leading_eq_take] at hp
    exact Text.not_mem_of_mem_split (List.mem_of_mem_take hp)
  constructor
  · intro h
    rw [← hsplit, h, hsplit]
  · intro h
    rw [packageName_eq_join, packageName_eq_join, h]

theorem hasPrefix_append_slash (name path : String) :
    Text.hasPrefix "@" (name ++ "/" ++ path) = Text.hasPrefix "@" name := by
  rw [Text.hasPrefix, Text.hasPrefix, String.toList_append, String.toList_append]
  cases name.toList with
  | nil => rfl
  | cons c rest => rfl

/-- The name of a package is scoped when the specifier is. -/
theorem hasPrefix_packageName (s : String) :
    Text.hasPrefix "@" (packageName s) = Text.hasPrefix "@" s := by
  have hsplit := packageSplit s
  generalize packageName s = name at hsplit ⊢
  generalize packageSubpath s = subpath at hsplit
  cases hsplit with
  | alone => rfl
  | slashed =>
      have hslash := hasPrefix_append_slash name ""
      rw [String.append_empty] at hslash
      exact hslash.symm
  | within _ => exact (hasPrefix_append_slash name _).symm

end Request

end ModuleGraph
