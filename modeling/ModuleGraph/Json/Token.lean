import ModuleGraph.Json.Raw

/-!
# Tokens of JSON texts

A text is read as marks and scalars; what stands between them is white space. A string may
name a character by its UTF-16 code, and a character outside the first plane by the two codes
of its surrogates.
-/

namespace ModuleGraph.Json

/-- A mark of punctuation, or a value without parts. -/
inductive Token
  | openArray
  | closeArray
  | openObject
  | closeObject
  | colon
  | comma
  | scalar (value : Raw)
deriving Inhabited, Repr

/-- The characters between tokens. -/
def isSpace (c : Char) : Bool := c == ' ' || c == '\t' || c == '\n' || c == '\r'

/-- The mark a character stands for. -/
def Token.ofMark? : Char → Option Token
  | '[' => some .openArray
  | ']' => some .closeArray
  | '\x7b' => some .openObject
  | '\x7d' => some .closeObject
  | ':' => some .colon
  | ',' => some .comma
  | _ => none

/-- The code of the character that follows a backslash. -/
def simpleEscape? : Char → Option Nat
  | '"' => some 0x22
  | '\\' => some 0x5c
  | '/' => some 0x2f
  | 'b' => some 0x08
  | 'f' => some 0x0c
  | 'n' => some 0x0a
  | 'r' => some 0x0d
  | 't' => some 0x09
  | _ => none

/-- The codes written in a string up to its closing quote, and the text after it. -/
def readCodes : List Char → Option (List Nat × List Char)
  | [] => none
  | '"' :: rest => some ([], rest)
  | '\\' :: 'u' :: a :: b :: c :: d :: rest =>
    (Text.numeral? 16 [a, b, c, d]).bind fun code =>
      (readCodes rest).map fun r => (code :: r.1, r.2)
  | '\\' :: c :: rest =>
    (simpleEscape? c).bind fun code => (readCodes rest).map fun r => (code :: r.1, r.2)
  | c :: rest =>
    if c = '\\' || c.toNat < 0x20 then none
    else (readCodes rest).map fun r => (c.toNat :: r.1, r.2)

/-- The code is the first of two surrogates. -/
def isHighSurrogate (code : Nat) : Bool := 0xd800 ≤ code && code < 0xdc00

/-- The code is the second of two surrogates. -/
def isLowSurrogate (code : Nat) : Bool := 0xdc00 ≤ code && code < 0xe000

/-- The characters of codes, two surrogates together being one character; none if a surrogate
stands alone. -/
def charactersOf? : List Nat → Option (List Char)
  | [] => some []
  | high :: low :: rest =>
    if isHighSurrogate high then
      if isLowSurrogate low then
        (charactersOf? rest).map
          (Char.ofNat (0x10000 + (high - 0xd800) * 0x400 + (low - 0xdc00)) :: ·)
      else none
    else if isLowSurrogate high then none
    else (charactersOf? (low :: rest)).map (Char.ofNat high :: ·)
  | [code] =>
    if isHighSurrogate code || isLowSurrogate code then none else some [Char.ofNat code]

/-- The string up to its closing quote, if it can be held, and the text after it. -/
def readString (cs : List Char) : Option (Option String × List Char) :=
  (readCodes cs).map fun r => ((charactersOf? r.1).map String.ofList, r.2)

/-- The characters of words and numbers. -/
def isWordChar (c : Char) : Bool := c.isAlphanum || c == '+' || c == '-' || c == '.'

/-- The value that a word or number stands for. -/
def ofWord? (word : List Char) : Option Raw :=
  if word = "null".toList then some .null
  else if word = "true".toList then some (.bool true)
  else if word = "false".toList then some (.bool false)
  else (Decimal.parse? word).map fun _ => .number (String.ofList word)

theorem length_of_readCodes {cs rest : List Char} {codes : List Nat}
    (h : readCodes cs = some (codes, rest)) : rest.length ≤ cs.length := by
  fun_induction readCodes cs generalizing codes rest with
  | case1 => simp at h
  | case2 => simp_all
  | case3 a b c d rest' ih =>
    simp only [Option.bind_eq_some_iff, Option.map_eq_some_iff, Prod.mk.injEq] at h
    obtain ⟨_, _, ⟨codes', rest''⟩, hr, _, rfl⟩ := h
    have := ih hr
    simp
    omega
  | case4 c rest' _ ih =>
    simp only [Option.bind_eq_some_iff, Option.map_eq_some_iff, Prod.mk.injEq] at h
    obtain ⟨_, _, ⟨codes', rest''⟩, hr, _, rfl⟩ := h
    have := ih hr
    simp
    omega
  | case5 => simp at h
  | case6 c rest' _ _ _ _ ih =>
    simp only [Option.map_eq_some_iff, Prod.mk.injEq] at h
    obtain ⟨⟨codes', rest''⟩, hr, _, rfl⟩ := h
    have := ih hr
    simp
    omega

theorem length_of_readString {cs rest : List Char} {s : Option String}
    (h : readString cs = some (s, rest)) : rest.length ≤ cs.length := by
  simp only [readString, Option.map_eq_some_iff, Prod.mk.injEq] at h
  obtain ⟨⟨codes, rest'⟩, hr, _, rfl⟩ := h
  exact length_of_readCodes hr

/-- The tokens of a text, none if something else stands in it. -/
def tokens? (cs : List Char) : Option (List Token) :=
  match cs with
  | [] => some []
  | c :: rest =>
    if isSpace c then tokens? rest
    else
      match Token.ofMark? c with
      | some mark => (tokens? rest).map (mark :: ·)
      | none =>
        if c = '"' then
          match _h : readString rest with
          | none => none
          | some (s, after) => (tokens? after).map (.scalar (.string s) :: ·)
        else
          match ofWord? (c :: rest.takeWhile isWordChar) with
          | none => none
          | some value => (tokens? (rest.dropWhile isWordChar)).map (.scalar value :: ·)
termination_by cs.length
decreasing_by
  · simp
  · simp
  · have := length_of_readString _h
    simp
    omega
  · have := (List.dropWhile_suffix (l := rest) isWordChar).length_le
    simp
    omega

end ModuleGraph.Json
