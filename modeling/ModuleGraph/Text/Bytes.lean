/-!
# Texts and bytes

The bytes of a text are its UTF-8. Bytes that are the UTF-8 of no text are read all the same:
where no character begins, the bytes with which one would have begun are read as one
replacement character.

## Implementation notes

Bytes are also spelled as texts of as many characters, so that what looks only for characters
of one byte does with bytes what it does with texts. A character that spells no byte is taken
for one that is in no text.
-/

namespace ModuleGraph.Text

/-- The character that is read where none begins. -/
def replacement : Char := '\uFFFD'

/-- The bytes of a text. -/
def encode (s : String) : List UInt8 := s.toList.flatMap String.utf8EncodeChar

/-- The character that begins with the first byte. -/
def leading? (bytes : List UInt8) : Option Char := bytes.toByteArray.utf8DecodeChar? 0

/-- A byte that does not begin a character. -/
def isTail (b : UInt8) : Bool := 0x80 ≤ b && b ≤ 0xBF

/-- A character of three bytes or four that begins with `lead` may go on with `next`. -/
def goesOn (lead next : UInt8) : Bool :=
  if lead = 0xE0 then 0xA0 ≤ next && next ≤ 0xBF
  else if lead = 0xED then 0x80 ≤ next && next ≤ 0x9F
  else if lead = 0xF0 then 0x90 ≤ next && next ≤ 0xBF
  else if lead = 0xF4 then 0x80 ≤ next && next ≤ 0x8F
  else 0xE1 ≤ lead && lead ≤ 0xF3 && isTail next

/-- How many bytes after `lead` are read together with it when they begin no character. -/
def brokenTail (lead : UInt8) : List UInt8 → Nat
  | second :: third :: _ =>
    if goesOn lead second then if 0xF0 ≤ lead && isTail third then 2 else 1 else 0
  | [second] => if goesOn lead second then 1 else 0
  | [] => 0

/-- The characters that are read after as many bytes are passed over. -/
def decodeFrom : Nat → List UInt8 → List Char
  | _, [] => []
  | passed + 1, _ :: rest => decodeFrom passed rest
  | 0, b :: rest =>
    match leading? (b :: rest) with
    | some c => c :: decodeFrom (c.utf8Size - 1) rest
    | none => replacement :: decodeFrom (brokenTail b rest) rest

/-- The text that some bytes read. -/
def decode (bytes : List UInt8) : String := String.ofList (decodeFrom 0 bytes)

/-- The text in which each character is a byte. -/
def spell (bytes : List UInt8) : String := String.ofList (bytes.map Char.ofUInt8)

/-- The byte that a character spells. -/
def byteOf (c : Char) : UInt8 := if c.toNat < 0x100 then c.toUInt8 else 0xFF

/-- The bytes that the characters of a text spell. -/
def unspell (s : String) : List UInt8 := s.toList.map byteOf

/-- The text in which each character is a byte of `s`. -/
def bytewise (s : String) : String := spell (encode s)

/-- The text that the bytes spelled by `s` read. -/
def reading (s : String) : String := decode (unspell s)

end ModuleGraph.Text
