import ModuleGraph.Text.Split

/-!
# The parts of a written specifier

A specifier may carry a query after a question mark and a fragment after a number sign. What
is looked for is the path before them. A number sign at the very beginning belongs to the
path, and so does one with a NUL before it.

## Implementation notes

The NULs before number signs are left out of the path. They are told by the number of bytes
before them, and the characters left out are those with as many characters before them: the
two agree as long as the text before is ASCII.
-/

namespace ModuleGraph.Resolution

/-- What follows the path of a specifier. The marks stay with the parts they begin. -/
structure Suffix where
  query : Option String
  fragment : Option String
deriving DecidableEq, Inhabited, Repr

namespace Suffix

/-- Nothing follows. -/
def none : Suffix := ⟨.none, .none⟩

/-- Something follows. -/
def isPresent (s : Suffix) : Bool := s.query.isSome || s.fragment.isSome

/-- The suffix, with the parts of another one in place of those it does not have. -/
def or (s other : Suffix) : Suffix := ⟨s.query.or other.query, s.fragment.or other.fragment⟩

end Suffix

/-- A specifier cut into its parts. -/
structure Written where
  path : String
  suffix : Suffix
deriving DecidableEq, Inhabited, Repr

namespace Written

/-- The texts before and from the first `mark` on; none if there is no such mark. -/
def cutBefore (mark : Char) (cs : List Char) : List Char × Option (List Char) :=
  match cs.dropWhile (· != mark) with
  | [] => (cs, none)
  | rest => (cs.takeWhile (· != mark), some rest)

/-- The texts before and from the first number sign that follows no NUL; `before` is the
character that the text follows. -/
def cutFragment (before : Char) : List Char → List Char × Option (List Char)
  | [] => ([], none)
  | c :: rest =>
    if c = '#' && before != '\x00' then ([], some (c :: rest))
    else
      let r := cutFragment c rest
      (c :: r.1, r.2)

/-- The numbers of bytes before the NULs that stand before number signs, in a text with
`offset` bytes before it. -/
def escapes (offset : Nat) : List Char → List Nat
  | [] => []
  | c :: rest =>
    let more := escapes (offset + c.utf8Size) rest
    if c = '\x00' && rest.head? = some '#' then offset :: more else more

/-- The characters but those at the given places. -/
def dropAt (places : List Nat) (cs : List Char) : List Char :=
  (cs.zipIdx.filter fun c => !places.contains c.2).map Prod.fst

/-- The parts of a specifier, none if its path is empty. -/
def parse? (specifier : String) : Option Written :=
  match specifier.toList with
  | [] => none
  | first :: rest =>
    let kept := if first = '/' || first = '.' || first = '#' then [first] else []
    let (body, fragment) := cutFragment first (if kept.isEmpty then first :: rest else rest)
    let (path, query) := cutBefore '?' body
    if (kept ++ path).isEmpty then none
    else
      some
        { path := String.ofList (dropAt (escapes 0 (kept ++ body)) (kept ++ path))
          suffix := ⟨query.map String.ofList, fragment.map String.ofList⟩ }

end Written

/-- The name of the package a bare specifier leads into, and what follows it from the slash
on. The name has a scope before it if it begins with `@`. -/
def packageParts (specifier : String) : String × String :=
  let segments := Text.split '/' specifier
  let n := if Text.hasPrefix "@" specifier then 2 else 1
  (Text.join '/' (segments.take n),
    match segments.drop n with
    | [] => ""
    | rest => "/" ++ Text.join '/' rest)

end ModuleGraph.Resolution
