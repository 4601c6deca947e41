import ModuleGraph.Json.Token

/-!
# Reading JSON texts

The containers that are still open are kept in a list, innermost first, and each token takes
one step from what is expected before it to what is expected after it. A text is a value if
its tokens lead to a finished value outside of every container.
-/

namespace ModuleGraph.Json

/-- A container that is still open. -/
inductive Open
  /-- An array with its items so far, latest first. -/
  | array (items : List Raw)
  /-- An object with its members so far, latest first; the value of `key` is being read. -/
  | object (members : List (Option String × Raw)) (key : Option String)
deriving Inhabited, Repr

/-- What comes next, inside the open containers. -/
inductive Reading
  /-- A value, or the end of an array that has no items yet. -/
  | value (first : Bool) (within : List Open)
  /-- A key, or the end of an object that has no members yet. -/
  | key (first : Bool) (members : List (Option String × Raw)) (within : List Open)
  /-- The colon after a key. -/
  | colon (key : Option String) (members : List (Option String × Raw)) (within : List Open)
  /-- A value has ended: a comma, the end of its container, or nothing. -/
  | ended (value : Raw) (within : List Open)
deriving Inhabited, Repr

namespace Reading

/-- What comes after a token, none if the token was not to come. -/
def step : Reading → Token → Option Reading
  | .value _ within, .scalar v => some (.ended v within)
  | .value _ within, .openArray => some (.value true (.array [] :: within))
  | .value _ within, .openObject => some (.key true [] within)
  | .value true (.array [] :: within), .closeArray => some (.ended (.array []) within)
  | .key _ members within, .scalar (.string name) => some (.colon name members within)
  | .key true _ within, .closeObject => some (.ended (.object []) within)
  | .colon name members within, .colon => some (.value false (.object members name :: within))
  | .ended v (.array items :: within), .comma => some (.value false (.array (v :: items) :: within))
  | .ended v (.array items :: within), .closeArray =>
    some (.ended (.array (v :: items).reverse) within)
  | .ended v (.object members name :: within), .comma =>
    some (.key false ((name, v) :: members) within)
  | .ended v (.object members name :: within), .closeObject =>
    some (.ended (.object ((name, v) :: members).reverse) within)
  | _, _ => none

/-- The value that has been read, if nothing is missing. -/
def finished? : Reading → Option Raw
  | .ended v [] => some v
  | _ => none

end Reading

/-- The value that tokens write. -/
def Raw.ofTokens? (tokens : List Token) : Option Raw :=
  (tokens.foldlM Reading.step (.value false [])).bind Reading.finished?

/-- The value as a text writes it. -/
def Raw.ofChars? (cs : List Char) : Option Raw := (tokens? cs).bind Raw.ofTokens?

/-- The value that a text writes. A byte order mark at its beginning does not count. -/
def ofText? (s : String) : Option Json :=
  (Raw.ofChars? (s.toList.dropWhile (· == '\uFEFF'))).bind (Raw.value? Raw.deepest)

end ModuleGraph.Json
