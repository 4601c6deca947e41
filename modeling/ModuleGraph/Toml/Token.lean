import ModuleGraph.Text.Numeral
import ModuleGraph.Toml.Scalar

/-!
# Tokens of TOML documents

A document is read as marks, words, quoted texts and ends of lines. Words are keys, dotted
keys or scalars, which only their place tells apart. Blanks and comments stand between
tokens; of two brackets it is kept whether they touch.
-/

namespace ModuleGraph.Toml

/-- The smallest parts of a document that have a meaning. -/
inductive Token
  /-- A quoted text, within one line or over several. -/
  | text (s : String) (multiline : Bool)
  | word (s : String)
  | equals
  | comma
  /-- A bracket, and whether the same one follows at once. -/
  | openBracket (doubled : Bool)
  | closeBracket (doubled : Bool)
  | openBrace
  | closeBrace
  | lineEnd
deriving DecidableEq, Inhabited, Repr

/-- A character that may stand in a comment or in a text within one line. -/
def isVisible (c : Char) : Bool := c == '\t' || (0x20 ≤ c.toNat && c.toNat != 0x7f)

/-- A blank within a line. -/
def isGap (c : Char) : Bool := c == ' ' || c == '\t'

/-- A character of a key without quotes. -/
def isKeyChar (c : Char) : Bool := c.isAlphanum || c == '_' || c == '-'

/-- A character of a word. -/
def isWordChar (c : Char) : Bool := isKeyChar c || c == '.' || c == ':' || c == '+'

/-- The character of a code, unless it is that of a surrogate or too large. -/
def character? (digits : List Char) : Option Char :=
  (Text.numeral? 16 digits).bind fun n =>
    if n.isValidChar then some (Char.ofNat n) else none

/-- The character that a letter after a backslash stands for. -/
def simpleEscape? : Char → Option Char
  | 'b' => some '\x08'
  | 't' => some '\t'
  | 'n' => some '\n'
  | 'f' => some '\x0c'
  | 'r' => some '\r'
  | '"' => some '"'
  | '\\' => some '\\'
  | _ => none

/-- A text read so far with one more character in front. -/
def withChar (c : Char) : List Char × List Char → List Char × List Char
  | (s, rest) => (c :: s, rest)

/-- A text in double quotes up to the closing one, and what follows. -/
def readBasic : List Char → Option (List Char × List Char)
  | [] => none
  | '"' :: rest => some ([], rest)
  | '\\' :: 'u' :: a :: b :: c :: d :: rest =>
    (character? [a, b, c, d]).bind fun x => (readBasic rest).map (withChar x)
  | '\\' :: 'U' :: a :: b :: c :: d :: e :: f :: g :: h :: rest =>
    (character? [a, b, c, d, e, f, g, h]).bind fun x => (readBasic rest).map (withChar x)
  | '\\' :: c :: rest => (simpleEscape? c).bind fun x => (readBasic rest).map (withChar x)
  | c :: rest =>
    if c = '\\' || !isVisible c then none else (readBasic rest).map (withChar c)

/-- Nothing but blanks stands before the end of the line. -/
def endsLine (cs : List Char) : Bool :=
  match cs.dropWhile isGap with
  | '\n' :: _ => true
  | '\r' :: '\n' :: _ => true
  | _ => false

/-- A text in three double quotes up to the closing ones, and what follows. Two quotes may
stand right before the closing three. A backslash at the end of a line takes away the blanks
and ends of lines that follow; `folding` says that they are being taken away. -/
def readLongBasic (folding : Bool) : List Char → Option (List Char × List Char)
  | '"' :: '"' :: '"' :: '"' :: '"' :: rest => some (['"', '"'], rest)
  | '"' :: '"' :: '"' :: '"' :: rest => some (['"'], rest)
  | '"' :: '"' :: '"' :: rest => some ([], rest)
  | '\\' :: 'u' :: a :: b :: c :: d :: rest =>
    (character? [a, b, c, d]).bind fun x => (readLongBasic false rest).map (withChar x)
  | '\\' :: 'U' :: a :: b :: c :: d :: e :: f :: g :: h :: rest =>
    (character? [a, b, c, d, e, f, g, h]).bind fun x =>
      (readLongBasic false rest).map (withChar x)
  | '\\' :: c :: rest =>
    if endsLine (c :: rest) then readLongBasic true (c :: rest)
    else (simpleEscape? c).bind fun x => (readLongBasic false rest).map (withChar x)
  | '\r' :: '\n' :: rest =>
    if folding then readLongBasic true rest
    else (readLongBasic false rest).map (withChar '\n')
  | '\n' :: rest =>
    if folding then readLongBasic true rest
    else (readLongBasic false rest).map (withChar '\n')
  | c :: rest =>
    if folding && isGap c then readLongBasic true rest
    else if c = '\\' || !isVisible c then none
    else (readLongBasic false rest).map (withChar c)
  | [] => none

/-- A text in single quotes up to the closing one, and what follows. -/
def readLiteral : List Char → Option (List Char × List Char)
  | [] => none
  | '\'' :: rest => some ([], rest)
  | c :: rest => if isVisible c then (readLiteral rest).map (withChar c) else none

/-- A text in three single quotes up to the closing ones, and what follows. -/
def readLongLiteral : List Char → Option (List Char × List Char)
  | '\'' :: '\'' :: '\'' :: '\'' :: '\'' :: rest => some (['\'', '\''], rest)
  | '\'' :: '\'' :: '\'' :: '\'' :: rest => some (['\''], rest)
  | '\'' :: '\'' :: '\'' :: rest => some ([], rest)
  | '\r' :: '\n' :: rest => (readLongLiteral rest).map (withChar '\n')
  | '\n' :: rest => (readLongLiteral rest).map (withChar '\n')
  | c :: rest => if isVisible c then (readLongLiteral rest).map (withChar c) else none
  | [] => none

/-- A text in three quotes does not begin with the end of the line of its opening ones. -/
def skipLineEnd : List Char → List Char
  | '\n' :: rest => rest
  | '\r' :: '\n' :: rest => rest
  | cs => cs

/-- The characters of a text in one or three of these quotes up to the closing ones, and what
follows. -/
def readBody (quote : Char) (long : Bool) : List Char → Option (List Char × List Char) :=
  if quote = '"' then if long then readLongBasic false else readBasic
  else if long then readLongLiteral else readLiteral

/-- The text after an opening quote, and what follows it. -/
def readQuoted (quote : Char) (cs : List Char) : Option (Token × List Char) :=
  let long := cs.take 2 == [quote, quote]
  (readBody quote long (if long then skipLineEnd (cs.drop 2) else cs)).map fun r =>
    (.text (String.ofList r.1) long, r.2)

/-- A word and what follows it. A date that a blank and a digit follow goes on to the time. -/
def readWord (cs : List Char) : List Char × List Char :=
  let word := cs.takeWhile isWordChar
  match cs.dropWhile isWordChar with
  | ' ' :: d :: rest =>
    if isDate word && d.isDigit then
      (word ++ ' ' :: (d :: rest).takeWhile isWordChar, (d :: rest).dropWhile isWordChar)
    else (word, ' ' :: d :: rest)
  | rest => (word, rest)

/-- What follows a comment, from its end of line on; none if it is not fit to be read. -/
def skipComment (cs : List Char) : Option (List Char) :=
  match cs.dropWhile isVisible with
  | [] => some []
  | '\n' :: rest => some ('\n' :: rest)
  | '\r' :: '\n' :: rest => some ('\r' :: '\n' :: rest)
  | _ => none

/-- The next token, if one stands before the next blank or comment, and what follows. -/
def nextToken : List Char → Option (Option Token × List Char)
  | [] => none
  | ' ' :: rest => some (none, rest)
  | '\t' :: rest => some (none, rest)
  | '\n' :: rest => some (some .lineEnd, rest)
  | '\r' :: '\n' :: rest => some (some .lineEnd, rest)
  | '#' :: rest => (skipComment rest).map (none, ·)
  | '=' :: rest => some (some .equals, rest)
  | ',' :: rest => some (some .comma, rest)
  | '[' :: rest => some (some (.openBracket (rest.head? == some '[')), rest)
  | ']' :: rest => some (some (.closeBracket (rest.head? == some ']')), rest)
  | '\x7b' :: rest => some (some .openBrace, rest)
  | '\x7d' :: rest => some (some .closeBrace, rest)
  | '"' :: rest => (readQuoted '"' rest).map fun r => (some r.1, r.2)
  | '\'' :: rest => (readQuoted '\'' rest).map fun r => (some r.1, r.2)
  | c :: rest =>
    if isWordChar c then
      let r := readWord (c :: rest)
      some (some (.word (String.ofList r.1)), r.2)
    else none

theorem length_of_map_withChar {r : Option (List Char × List Char)} {c : Char}
    {s rest : List Char} {n : Nat} (h : r.map (withChar c) = some (s, rest))
    (ih : ∀ {s rest}, r = some (s, rest) → rest.length ≤ n) : rest.length ≤ n := by
  obtain ⟨⟨_, _⟩, hr, he⟩ := Option.map_eq_some_iff.1 h
  cases he
  exact ih hr

theorem length_of_bind_withChar {x : Option Char} {r : Option (List Char × List Char)}
    {s rest : List Char} {n : Nat}
    (h : (x.bind fun c => r.map (withChar c)) = some (s, rest))
    (ih : ∀ {s rest}, r = some (s, rest) → rest.length ≤ n) : rest.length ≤ n := by
  obtain ⟨_, _, h⟩ := Option.bind_eq_some_iff.1 h
  exact length_of_map_withChar h ih

theorem length_of_readBasic {cs rest s : List Char} (h : readBasic cs = some (s, rest)) :
    rest.length ≤ cs.length := by
  fun_induction readBasic cs generalizing s rest with
  | case1 => simp at h
  | case2 => simp_all
  | case3 a b c d rest' ih =>
    have := length_of_bind_withChar h ih
    simp
    omega
  | case4 a b c d e f g h' rest' ih =>
    have := length_of_bind_withChar h ih
    simp
    omega
  | case5 c rest' _ _ ih =>
    have := length_of_bind_withChar h ih
    simp
    omega
  | case6 => simp at h
  | case7 c rest' _ _ _ _ _ ih =>
    have := length_of_map_withChar h ih
    simp
    omega

theorem length_of_readLongBasic {folding : Bool} {cs rest s : List Char}
    (h : readLongBasic folding cs = some (s, rest)) : rest.length ≤ cs.length := by
  fun_induction readLongBasic folding cs generalizing s rest with
  | case1 | case2 | case3 => simp at h; simp [← h.2]; omega
  | case4 | case5 | case7 =>
    rename_i ih
    have := length_of_bind_withChar h ih
    simp
    omega
  | case6 =>
    rename_i ih
    exact Nat.le_succ_of_le (ih h)
  | case8 | case10 | case12 =>
    rename_i ih
    have := ih h
    simp
    omega
  | case9 | case11 | case14 =>
    rename_i ih
    have := length_of_map_withChar h ih
    simp
    omega
  | case13 | case15 => simp at h

theorem length_of_readLiteral {cs rest s : List Char} (h : readLiteral cs = some (s, rest)) :
    rest.length ≤ cs.length := by
  fun_induction readLiteral cs generalizing s rest with
  | case1 | case4 => simp at h
  | case2 => simp_all
  | case3 =>
    rename_i ih
    have := length_of_map_withChar h ih
    simp
    omega

theorem length_of_readLongLiteral {cs rest s : List Char}
    (h : readLongLiteral cs = some (s, rest)) : rest.length ≤ cs.length := by
  fun_induction readLongLiteral cs generalizing s rest with
  | case1 | case2 | case3 => simp at h; simp [← h.2]; omega
  | case4 | case5 | case6 =>
    rename_i ih
    have := length_of_map_withChar h ih
    simp
    omega
  | case7 | case8 => simp at h

theorem length_skipLineEnd_le (cs : List Char) : (skipLineEnd cs).length ≤ cs.length := by
  unfold skipLineEnd
  split <;> simp
  omega

/-- Reading in quotes of either length leaves no more than there was. -/
theorem length_of_readBody {quote : Char} {long : Bool} {cs rest s : List Char}
    (h : readBody quote long cs = some (s, rest)) : rest.length ≤ cs.length := by
  unfold readBody at h
  split at h <;> split at h
  · exact length_of_readLongBasic h
  · exact length_of_readBasic h
  · exact length_of_readLongLiteral h
  · exact length_of_readLiteral h

/-- Reading a quoted text leaves no more than there was. -/
theorem length_of_readQuoted {quote : Char} {cs rest : List Char} {t : Token}
    (h : readQuoted quote cs = some (t, rest)) : rest.length ≤ cs.length := by
  obtain ⟨⟨s, rest'⟩, hr, he⟩ := Option.map_eq_some_iff.1 h
  obtain ⟨_, rfl⟩ := Prod.mk.inj he
  refine Nat.le_trans (length_of_readBody hr) ?_
  split
  · exact Nat.le_trans (length_skipLineEnd_le _) (by simp)
  · exact Nat.le_refl _

theorem length_of_skipComment {cs rest : List Char} (h : skipComment cs = some rest) :
    rest.length ≤ cs.length := by
  have hd := (List.dropWhile_suffix (l := cs) isVisible).length_le
  unfold skipComment at h
  split at h
  · simp [← Option.some.inj h]
  · rename_i he
    rw [← Option.some.inj h, ← he]
    exact hd
  · rename_i he
    rw [← Option.some.inj h, ← he]
    exact hd
  · simp at h

/-- Something is left out after a word, which has a character at least. -/
theorem length_readWord_lt {c : Char} {cs : List Char} (h : isWordChar c = true) :
    (readWord (c :: cs)).2.length < (c :: cs).length := by
  have hd : ((c :: cs).dropWhile isWordChar).length ≤ cs.length := by
    rw [List.dropWhile_cons_of_pos h]
    exact (List.dropWhile_suffix _).length_le
  unfold readWord
  split
  · rename_i d rest he
    rw [he] at hd
    dsimp only
    split
    · have := (List.dropWhile_suffix (l := d :: rest) isWordChar).length_le
      simp at this hd ⊢
      omega
    · simp at hd ⊢
      omega
  · simp at hd ⊢
    omega

/-- Every token takes something away. -/
theorem length_of_nextToken {cs rest : List Char} {t : Option Token}
    (h : nextToken cs = some (t, rest)) : rest.length < cs.length := by
  unfold nextToken at h
  split at h
  case h_1 => simp at h
  case h_6 =>
    obtain ⟨_, hr, he⟩ := Option.map_eq_some_iff.1 h
    obtain ⟨_, rfl⟩ := Prod.mk.inj he
    exact Nat.lt_succ_of_le (length_of_skipComment hr)
  case h_13 | h_14 =>
    obtain ⟨_, hr, he⟩ := Option.map_eq_some_iff.1 h
    obtain ⟨_, rfl⟩ := Prod.mk.inj he
    exact Nat.lt_succ_of_le (length_of_readQuoted hr)
  case h_15 =>
    split at h
    · rename_i hc
      obtain ⟨_, rfl⟩ := Prod.mk.inj (Option.some.inj h)
      exact length_readWord_lt hc
    · simp at h
  all_goals
    obtain ⟨_, rfl⟩ := Prod.mk.inj (Option.some.inj h)
    simp only [List.length_cons]
    omega

/-- The tokens of a document, none if something in it is not fit to be read. -/
def tokens? (cs : List Char) : Option (List Token) :=
  match cs with
  | [] => some []
  | c :: rest =>
    match _h : nextToken (c :: rest) with
    | none => none
    | some (t, after) => (tokens? after).map (t.toList ++ ·)
termination_by cs.length
decreasing_by exact length_of_nextToken _h

end ModuleGraph.Toml
