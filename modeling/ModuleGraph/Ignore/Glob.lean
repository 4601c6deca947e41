import ModuleGraph.Text.Regular

/-!
# Patterns of ignore files

In a pattern of an ignore file `?` and `*` stand for what is within one segment, `**` between
slashes for any directories, brackets for one of the characters they list, and braces for one
of several patterns. A backslash takes away the meaning of the character after it.

## Implementation notes

Paths are matched byte by byte, so that `?` stands for one byte of a character that has more.
The pattern of an open brace waits on a stack until the brace is closed.
-/

namespace ModuleGraph.Ignore

/-- A part of a pattern. -/
inductive Glob
  | literal (c : Char)
  | anyByte
  | anyName
  /-- Directories at the beginning, or none. -/
  | anyAbove
  /-- A slash, or directories between slashes. -/
  | anyBetween
  /-- Whatever lies below. -/
  | anyBelow
  | oneOf (negated : Bool) (ranges : List (Char × Char))
  | choice (branches : List (List Glob))
deriving Inhabited, Repr

namespace Glob

/-- The beginning of a list between brackets. -/
inductive Listing
  /-- The bracket is not closed. -/
  | unclosed
  /-- The bounds of a range are in the wrong order. -/
  | reversed
  | closed (ranges : List (Char × Char)) (rest : List Char)
deriving Inhabited, Repr

/-- Reads a list up to its closing bracket. `first` says that no character was read yet,
`bounded` that a hyphen was which may be the middle of a range; the latest range comes
first. -/
def readList (first bounded : Bool) (ranges : List (Char × Char)) : List Char → Listing
  | [] => .unclosed
  | ']' :: rest =>
    if first then readList false false ((']', ']') :: ranges) rest
    else .closed ((if bounded then ('-', '-') :: ranges else ranges).reverse) rest
  | c :: rest =>
    if c = '-' && !first && !bounded then readList false true ranges rest
    else
      match bounded, ranges with
      | true, (low, _) :: more =>
        if c < low then .reversed else readList false false ((low, c) :: more) rest
      | _, _ => readList false false ((c, c) :: ranges) rest

theorem length_of_readList {first bounded : Bool} {ranges found : List (Char × Char)}
    {cs rest : List Char} (h : readList first bounded ranges cs = .closed found rest) :
    rest.length < cs.length := by
  fun_induction readList first bounded ranges cs with
  | case1 | case5 => simp at h
  | case3 =>
    cases h
    simp
  | case2 | case4 | case6 | case7 =>
    rename_i ih
    have := ih h
    simp
    omega

/-- A brace that is still open: the pattern before it, and its branches so far; all latest
first. -/
structure Brace where
  outer : List Glob
  branches : List (List Glob)
deriving Inhabited, Repr

/-- The parts read so far, latest first, within the open braces. -/
structure Draft where
  parts : List Glob
  braces : List Brace
deriving Inhabited, Repr

namespace Draft

/-- Nothing is read yet. -/
def empty : Draft := ⟨[], []⟩

/-- One more part. -/
def push (d : Draft) (g : Glob) : Draft := { d with parts := g :: d.parts }

/-- A character that has a meaning within braces only. -/
def comma (d : Draft) : Draft :=
  match d.braces with
  | [] => d.push (.literal ',')
  | b :: more => ⟨[], { b with branches := d.parts.reverse :: b.branches } :: more⟩

/-- A brace is opened. -/
def openBrace (d : Draft) : Draft := ⟨[], ⟨d.parts, []⟩ :: d.braces⟩

/-- The innermost brace is closed. -/
def closeBrace? (d : Draft) : Option Draft :=
  match d.braces with
  | [] => none
  | b :: more => some ⟨.choice (d.parts.reverse :: b.branches).reverse :: b.outer, more⟩

/-- The pattern, unless a brace is still open. -/
def finished? (d : Draft) : Option (List Glob) :=
  if d.braces.isEmpty then some d.parts.reverse else none

/-- Two stars that are the end of a segment which slashes or the ends of the pattern
enclose take the place of the part before them. -/
def widen (d : Draft) (last : Bool) : Draft :=
  match d.parts with
  | .anyAbove :: _ => d
  | .anyBelow :: _ => d
  | parts => { d with parts := (if last then anyBelow else anyBetween) :: parts.tail }

/-- Two stars after the character `before` and followed by `next`; whether a slash is read
with them. -/
def stars (d : Draft) (before next : Option Char) : Draft × Bool :=
  let plain := ((d.push .anyName).push .anyName, false)
  if d.parts.isEmpty then
    match next with
    | none => (d.push .anyAbove, false)
    | some '/' => (d.push .anyAbove, true)
    | some _ => plain
  else if before != some '/' then plain
  else
    match next with
    | none => (d.widen true, false)
    | some '/' => (d.widen false, true)
    | some ',' => if d.braces.isEmpty then plain else (d.widen true, false)
    | some '\x7d' => if d.braces.isEmpty then plain else (d.widen true, false)
    | some _ => plain

end Draft

/-- The parts of a pattern: `cs` follows the character `before` and the parts of `d`. A brace
that is not closed, or closed but not open, is a fault; so is a backslash at the end. An open
bracket that is not closed stands for itself. -/
def parse? (before : Option Char) (d : Draft) (cs : List Char) : Option (List Glob) :=
  match cs with
  | [] => d.finished?
  | '?' :: rest => parse? (some '?') (d.push .anyByte) rest
  | '*' :: '*' :: rest =>
    let (d, slash) := d.stars before rest.head?
    if slash then parse? (some '/') d rest.tail else parse? (some '*') d rest
  | '*' :: rest => parse? (some '*') (d.push .anyName) rest
  | '[' :: rest =>
    let negated := rest.head? == some '!' || rest.head? == some '^'
    match _h : readList true false [] (if negated then rest.tail else rest) with
    | .unclosed => parse? (some '[') (d.push (.literal '[')) rest
    | .reversed => none
    | .closed ranges after => parse? (some ']') (d.push (.oneOf negated ranges)) after
  | '\x7b' :: rest => parse? (some '\x7b') d.openBrace rest
  | '\x7d' :: rest => d.closeBrace?.bind fun d => parse? (some '\x7d') d rest
  | ',' :: rest => parse? (some ',') d.comma rest
  | '\\' :: c :: rest => parse? (some c) (d.push (.literal c)) rest
  | c :: rest => if c = '\\' then none else parse? (some c) (d.push (.literal c)) rest
termination_by cs.length
decreasing_by
  · simp
  · simp only [List.length_cons, List.length_tail]
    omega
  · simp only [List.length_cons]
    omega
  · simp
  · simp
  · have := length_of_readList _h
    split at this <;> simp at this ⊢ <;> omega
  · simp
  · simp
  · simp
  · simp only [List.length_cons]
    omega
  · simp

/-- A byte of a segment. -/
def segmentByte : Text.Regular UInt8 := .one (· != 0x2f)

/-- Any bytes and a slash, or nothing. -/
def throughSlash : Text.Regular UInt8 := .next .all (.one (· == 0x2f))

/-- The bytes of a character. -/
def bytesOf (c : Char) : List UInt8 := String.utf8EncodeChar c

/-- A byte is in a range of characters. Characters of several bytes are in a list byte by
byte, and a range goes from the last byte of its first character to the first one of its
last. -/
def isBetween (range : Char × Char) (b : UInt8) : Bool :=
  if range.1 = range.2 then (bytesOf range.1).contains b
  else
    let low := bytesOf range.1
    let high := bytesOf range.2
    low.dropLast.contains b || high.tail.contains b ||
      (low.getLastD 0 ≤ b && b ≤ high.headD 0)

mutual

/-- The texts that a part stands for, in bytes. -/
def textsOf : Glob → Text.Regular UInt8
  | .literal c => .word (bytesOf c)
  | .anyByte => segmentByte
  | .anyName => .repeated segmentByte
  | .anyAbove => .either .nothing throughSlash
  | .anyBetween => .next (.one (· == 0x2f)) (.either .nothing throughSlash)
  | .anyBelow => .next (.one (· == 0x2f)) .all
  | .oneOf negated ranges => .one fun b => ranges.any (isBetween · b) != negated
  | .choice branches => if branches.all List.isEmpty then .nothing else textsOfAny branches

/-- The texts that parts stand for, one after the other. -/
def textsOfList : List Glob → Text.Regular UInt8
  | [] => .nothing
  | g :: rest => .next (textsOf g) (textsOfList rest)

/-- The texts that any of these branches stands for; a branch without parts is none. -/
def textsOfAny : List (List Glob) → Text.Regular UInt8
  | [] => .never
  | branch :: rest =>
    if branch.isEmpty then textsOfAny rest else .either (textsOfList branch) (textsOfAny rest)

end

/-- The texts that a pattern stands for; two stars alone stand for every text. -/
def texts : List Glob → Text.Regular UInt8
  | [.anyAbove] => .all
  | parts => textsOfList parts

/-- The texts of a pattern without a fault. -/
def compile? (pattern : String) : Option (Text.Regular UInt8) :=
  (parse? none .empty pattern.toList).map texts

end Glob

end ModuleGraph.Ignore
