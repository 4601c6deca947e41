import ModuleGraph.Text.Regular

/-!
# Wildcard patterns of paths

In a pattern of the settings `?` stands for any character, `*` for any text, `**` for any
directories, and brackets for one of the characters they list. Slashes are characters like
all others, except that `**` stands for whole segments.
-/

namespace ModuleGraph.Text

/-- A part of a pattern. -/
inductive Wildcard
  | char (c : Char)
  | anyChar
  | anyText
  /-- Directories with the slashes after them. -/
  | anyDirectories
  /-- A character inside one of the ranges, or outside of all of them. -/
  | oneOf (ranges : List (Char × Char)) (inside : Bool)
deriving DecidableEq, Inhabited, Repr

namespace Wildcard

/-- The ranges between brackets: of three characters with a hyphen in the middle the first
and the last are the bounds, and every other character stands for itself. -/
def ranges : List Char → List (Char × Char)
  | low :: '-' :: high :: rest => (low, high) :: ranges rest
  | c :: rest => (c, c) :: ranges rest
  | [] => []

/-- What brackets list, and what follows them. The first character of a list does not close
it, so that a closing bracket can be listed there. -/
def readList (cs : List Char) : Option (List (Char × Char) × List Char) :=
  match cs with
  | [] => none
  | first :: rest =>
    match rest.dropWhile (· != ']') with
    | [] => none
    | _ :: after => some (ranges (first :: rest.takeWhile (· != ']')), after)

theorem length_of_readList {cs after : List Char} {rs : List (Char × Char)}
    (h : readList cs = some (rs, after)) : after.length < cs.length := by
  unfold readList at h
  split at h
  · simp at h
  · rename_i first rest
    have hd := (List.dropWhile_suffix (l := rest) (· != ']')).length_le
    split at h
    · simp at h
    · rename_i he
      obtain ⟨_, rfl⟩ := Prod.mk.inj (Option.some.inj h)
      rw [he] at hd
      simp at hd ⊢
      omega

/-- The parts of the pattern `cs`, which follows the character `before`. Three stars in a
row, two stars that are not all of their segment, and an open bracket that is not closed are
faults. -/
def parse? (before : Option Char) (cs : List Char) : Option (List Wildcard) :=
  match cs with
  | [] => some []
  | '?' :: rest => (parse? (some '?') rest).map (.anyChar :: ·)
  | '*' :: '*' :: rest =>
    if before.all (· == '/') then
      match rest with
      | [] => some [.anyDirectories]
      | '/' :: rest => (parse? (some '/') rest).map (.anyDirectories :: ·)
      | _ => none
    else none
  | '*' :: rest => (parse? (some '*') rest).map (.anyText :: ·)
  | '[' :: '!' :: rest =>
    match _h : readList rest with
    | none => none
    | some (rs, after) => (parse? (some ']') after).map (.oneOf rs false :: ·)
  | '[' :: rest =>
    match _h : readList rest with
    | none => none
    | some (rs, after) => (parse? (some ']') after).map (.oneOf rs true :: ·)
  | c :: rest => (parse? (some c) rest).map (.char c :: ·)
termination_by cs.length
decreasing_by
  · simp
  · simp
    omega
  · simp
  · have := length_of_readList _h
    simp
    omega
  · have := length_of_readList _h
    simp
    omega
  · simp

/-- The texts that parts stand for, one after the other. At the end of a pattern directories
need no slash after them. -/
def texts : List Wildcard → Regular Char
  | [] => .nothing
  | .char c :: rest => .next (.one (· == c)) (texts rest)
  | .anyChar :: rest => .next .any (texts rest)
  | .anyText :: rest => .next .all (texts rest)
  | .anyDirectories :: rest =>
    let more := texts rest
    .either (.next (.either .nothing (.next .all (.one (· == '/')))) more)
      (if more.hasEmpty then .all else .never)
  | .oneOf rs inside :: rest =>
    .next (.one fun c => (rs.any fun r => r.1 ≤ c && c ≤ r.2) == inside) (texts rest)

/-- The pattern stands for the text. A pattern with a fault stands for none. -/
def accepts (pattern text : String) : Bool :=
  (parse? none pattern.toList).any fun parts => (texts parts).accepts text.toList

end Wildcard

end ModuleGraph.Text
