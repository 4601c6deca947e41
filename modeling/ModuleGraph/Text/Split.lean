/-!
# Texts cut at a separator

A text is cut at every occurrence of one character; joining the pieces by that character
gives the text back, and pieces free of it are found again after joining.

## Implementation notes

The cut is the one of lists, so that its laws are those of `List.splitOn`.
-/

namespace ModuleGraph.Text

/-- The pieces of `s` between the occurrences of `sep`, one more than there are occurrences. -/
def split (sep : Char) (s : String) : List String :=
  (s.toList.splitOn sep).map String.ofList

/-- The pieces written one after the other with `sep` between them. -/
def join (sep : Char) (ps : List String) : String :=
  (String.singleton sep).intercalate ps

theorem split_ne_nil (sep : Char) (s : String) : split sep s ≠ [] := by
  simp [split]

theorem toList_join (sep : Char) (ps : List String) :
    (join sep ps).toList = [sep].intercalate (ps.map String.toList) := by
  simp [join]

/-- Cutting loses nothing. -/
theorem join_split (sep : Char) (s : String) : join sep (split sep s) = s := by
  rw [← String.toList_inj, toList_join, split, List.map_map]
  simp [Function.comp_def, List.intercalate_splitOn]

/-- Pieces without the separator are found again. -/
theorem split_join {sep : Char} {ps : List String} (hne : ps ≠ [])
    (h : ∀ p ∈ ps, sep ∉ p.toList) : split sep (join sep ps) = ps := by
  rw [split, toList_join, List.splitOn_intercalate]
  · simp [Function.comp_def]
  · simpa using h
  · simpa using hne

/-- A separator between two texts separates their pieces. -/
theorem split_append_singleton (sep : Char) (s t : String) :
    split sep (s ++ String.singleton sep ++ t) = split sep s ++ split sep t := by
  simp [split, List.splitOn_append_cons_self]

theorem not_mem_of_mem_splitOn {sep : Char} {piece : List Char} :
    ∀ {cs : List Char}, piece ∈ cs.splitOn sep → sep ∉ piece
  | [], h => by
    rw [List.splitOn_nil, List.mem_singleton] at h
    simp [h]
  | c :: rest, h => by
    rw [List.splitOn_cons_eq_if_modifyHead] at h
    split at h
    · rcases List.mem_cons.mp h with rfl | hrest
      · simp
      · exact not_mem_of_mem_splitOn hrest
    · rename_i hc
      cases hs : rest.splitOn sep with
      | nil => simp [hs] at h
      | cons first more =>
        have hpieces : ∀ {p}, p ∈ first :: more → sep ∉ p :=
          fun hp => not_mem_of_mem_splitOn (hs ▸ hp)
        rw [hs, List.modifyHead_cons, List.mem_cons] at h
        rcases h with rfl | hmore
        · rw [List.mem_cons, not_or]
          exact ⟨fun heq => hc (by simp [heq]), hpieces List.mem_cons_self⟩
        · exact hpieces (List.mem_cons_of_mem _ hmore)

/-- No piece of a text contains the separator. -/
theorem not_mem_of_mem_split {sep : Char} {s p : String} (h : p ∈ split sep s) :
    sep ∉ p.toList := by
  obtain ⟨piece, hpiece, rfl⟩ := List.mem_map.mp h
  rw [String.toList_ofList]
  exact not_mem_of_mem_splitOn hpiece

theorem split_eq_singleton {sep : Char} {s : String} (h : sep ∉ s.toList) :
    split sep s = [s] := by
  simp [split, List.splitOn_eq_singleton h]

theorem split_empty (sep : Char) : split sep "" = [""] :=
  split_eq_singleton (by simp)

/-- No pieces join to the empty text, which has one piece. -/
theorem split_join_nil (sep : Char) : split sep (join sep []) = [""] :=
  split_empty sep

theorem split_slash_append (s : String) : split '/' ("/" ++ s) = "" :: split '/' s := by
  have hcut : "/" ++ s = "" ++ String.singleton '/' ++ s := rfl
  rw [hcut, split_append_singleton, split_empty]
  rfl

/-- The text before and after the first occurrence of `sep`. -/
def cutFirst (sep : Char) (s : String) : Option (String × String) :=
  match s.toList.span (· != sep) with
  | (_, []) => none
  | (before, _ :: after) => some (String.ofList before, String.ofList after)

/-- The text before and after the last occurrence of `sep`. -/
def cutLast (sep : Char) (s : String) : Option (String × String) :=
  match s.toList.reverse.span (· != sep) with
  | (_, []) => none
  | (after, _ :: before) => some (String.ofList before.reverse, String.ofList after.reverse)

/-- The text that follows `lead`, when `s` begins with it. -/
def afterPrefix? (lead s : String) : Option String :=
  (lead.toList.isPrefixOf? s.toList).map String.ofList

/-- `s` begins with `lead`. -/
def hasPrefix (lead s : String) : Bool :=
  lead.toList.isPrefixOf s.toList

/-- `s` ends with `tail`. -/
def hasSuffix (tail s : String) : Bool :=
  tail.toList.isSuffixOf s.toList

/-- Every occurrence of `c` in `s` is exchanged for the text `instead`. -/
def replaceChar (c : Char) (instead s : String) : String :=
  String.join ((s.toList).map fun x => if x = c then instead else String.singleton x)

end ModuleGraph.Text
