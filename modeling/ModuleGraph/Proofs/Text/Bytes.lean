import Mathlib.Data.List.Basic
import ModuleGraph.Text.Bytes
import ModuleGraph.Text.Split

/-!
# Reading bytes

Main statements: `decode_encode` and `encode_decode`. The bytes of a text read that text, and what
is read without a replacement character has the bytes that were read. Characters of one byte are
read from that byte alone, so the slashes of what is read are those of the bytes.
-/

namespace ModuleGraph.Text

theorem decodeFrom_eq_drop (passed : Nat) (bytes : List UInt8) :
    decodeFrom passed bytes = decodeFrom 0 (bytes.drop passed) := by
  induction bytes generalizing passed with
  | nil =>
      rw [List.drop_nil]
      cases passed <;> rfl
  | cons b rest ih =>
      cases passed with
      | zero => rfl
      | succ n => rw [decodeFrom, ih, List.drop_succ_cons]

theorem leading?_append (c : Char) (rest : List UInt8) :
    leading? (String.utf8EncodeChar c ++ rest) = some c := by
  rw [leading?, List.toByteArray_append]
  exact ByteArray.utf8DecodeChar?_utf8EncodeChar_append

theorem exists_eq_append_of_leading? {bytes : List UInt8} {c : Char}
    (h : leading? bytes = some c) : ∃ rest, bytes = String.utf8EncodeChar c ++ rest := by
  obtain ⟨rest, hrest⟩ := ByteArray.exists_of_utf8DecodeChar?_eq_some h
  refine ⟨rest.data.toList, ?_⟩
  simpa using congrArg (fun b : ByteArray => b.data.toList) hrest

/-- A character is read from its bytes. -/
theorem decodeFrom_append (c : Char) (rest : List UInt8) :
    decodeFrom 0 (String.utf8EncodeChar c ++ rest) = c :: decodeFrom 0 rest := by
  have hlength := String.length_utf8EncodeChar c
  have hleading := leading?_append c rest
  cases hbytes : String.utf8EncodeChar c with
  | nil => exact absurd hbytes String.utf8EncodeChar_ne_nil
  | cons b more =>
      rw [hbytes] at hlength hleading
      have hpassed : c.utf8Size - 1 = more.length := by
        rw [← hlength, List.length_cons, Nat.add_sub_cancel]
      rw [List.cons_append] at hleading ⊢
      rw [decodeFrom, hleading]
      change c :: decodeFrom (c.utf8Size - 1) (more ++ rest) = _
      rw [hpassed, decodeFrom_eq_drop, List.drop_left]

/-- The bytes of a text read the text. -/
@[simp] theorem decode_encode (s : String) : decode (encode s) = s := by
  have hchars : ∀ cs : List Char, decodeFrom 0 (cs.flatMap String.utf8EncodeChar) = cs := by
    intro cs
    induction cs with
    | nil => rfl
    | cons c rest ih => rw [List.flatMap_cons, decodeFrom_append, ih]
  rw [decode, encode, hchars, String.ofList_toList]

/-- Bytes and the characters that they read: each of them from its own bytes, or a replacement
from some bytes. -/
inductive Reads : List UInt8 → List Char → Prop
  | nil : Reads [] []
  | broken {rest : List UInt8} {cs : List Char} (b : UInt8) (n : Nat) (h : Reads (rest.drop n) cs) :
      Reads (b :: rest) (replacement :: cs)
  | char {rest : List UInt8} {cs : List Char} (c : Char) (h : Reads rest cs) :
      Reads (String.utf8EncodeChar c ++ rest) (c :: cs)

theorem reads_decodeFrom (bytes : List UInt8) : Reads bytes (decodeFrom 0 bytes) := by
  induction hn : bytes.length using Nat.strongRecOn generalizing bytes with
  | ind n ih =>
      cases bytes with
      | nil => exact .nil
      | cons b rest =>
          cases h : leading? (b :: rest) with
          | none =>
              rw [decodeFrom, h]
              change Reads _ (replacement :: decodeFrom (brokenTail b rest) rest)
              rw [decodeFrom_eq_drop]
              refine .broken b _ (ih _ ?_ _ rfl)
              rw [← hn, List.length_drop, List.length_cons]
              omega
          | some c =>
              obtain ⟨after, hafter⟩ := exists_eq_append_of_leading? h
              rw [hafter, decodeFrom_append]
              refine .char c (ih _ ?_ _ rfl)
              have hpos : 0 < (String.utf8EncodeChar c).length :=
                List.length_pos_iff.mpr String.utf8EncodeChar_ne_nil
              rw [← hn, hafter, List.length_append]
              omega

/-- What is read without a replacement has the bytes that were read. -/
theorem encode_decode {bytes : List UInt8} (h : replacement ∉ (decode bytes).toList) :
    encode (decode bytes) = bytes := by
  have hchars : ∀ {bs cs}, Reads bs cs → replacement ∉ cs →
      cs.flatMap String.utf8EncodeChar = bs := by
    intro bs cs hreads hnone
    induction hreads with
    | nil => rfl
    | broken b n _ _ => exact absurd List.mem_cons_self hnone
    | char c _ ih =>
        rw [List.flatMap_cons, ih fun hmem => hnone (List.mem_cons_of_mem c hmem)]
  rw [decode, String.toList_ofList] at h
  rw [encode, decode, String.toList_ofList]
  exact hchars (reads_decodeFrom bytes) h

theorem utf8EncodeChar_of_lt {c : Char} (h : c.toNat < 0x80) :
    String.utf8EncodeChar c = [c.toUInt8] := by
  have hle : c.val.toNat ≤ 127 := Nat.lt_succ_iff.mp h
  rw [String.utf8EncodeChar, if_pos hle]
  rfl

theorem toNat_ofUInt8 (b : UInt8) : (Char.ofUInt8 b).toNat = b.toNat := UInt8.toNat_toUInt32 b

/-- A character of one byte is read from that byte. -/
theorem mem_of_mem_decode {bytes : List UInt8} {c : Char} (hc : c.toNat < 0x80)
    (h : c ∈ (decode bytes).toList) : c.toUInt8 ∈ bytes := by
  have hchars : ∀ {bs cs}, Reads bs cs → c ∈ cs → c.toUInt8 ∈ bs := by
    intro bs cs hreads hmem
    induction hreads with
    | nil => cases hmem
    | broken b n _ ih =>
        rcases List.mem_cons.mp hmem with rfl | hmem
        · exact absurd hc (by decide)
        · exact List.mem_cons_of_mem b (List.mem_of_mem_drop (ih hmem))
    | char d _ ih =>
        rcases List.mem_cons.mp hmem with rfl | hmem
        · rw [utf8EncodeChar_of_lt hc]
          exact List.mem_cons_self
        · exact List.mem_append_right _ (ih hmem)
  rw [decode, String.toList_ofList] at h
  exact hchars (reads_decodeFrom bytes) h

theorem toNat_toUInt8 {c : Char} (h : c.toNat < 0x100) : c.toUInt8.toNat = c.toNat := by
  rw [Char.toUInt8, UInt32.toNat_toUInt8]
  exact Nat.mod_eq_of_lt h

theorem toNat_ofUInt8_lt (b : UInt8) : (Char.ofUInt8 b).toNat < 0x100 := by
  rw [toNat_ofUInt8]
  exact b.toNat_lt

@[simp] theorem byteOf_ofUInt8 (b : UInt8) : byteOf (Char.ofUInt8 b) = b := by
  have hlt := toNat_ofUInt8_lt b
  rw [byteOf, if_pos hlt, ← UInt8.toNat_inj, toNat_toUInt8 hlt, toNat_ofUInt8]

theorem ofUInt8_byteOf {c : Char} (h : c.toNat < 0x100) : Char.ofUInt8 (byteOf c) = c := by
  rw [← Char.toNat_inj, toNat_ofUInt8, byteOf, if_pos h, toNat_toUInt8 h]

/-- Only its own character spells a byte, but for the byte that others are taken for. -/
theorem eq_ofUInt8_of_byteOf {c : Char} {b : UInt8} (hb : b ≠ 0xFF) (h : byteOf c = b) :
    c = Char.ofUInt8 b := by
  by_cases hc : c.toNat < 0x100
  · rw [← h, ofUInt8_byteOf hc]
  · rw [byteOf, if_neg hc] at h
    exact absurd h.symm hb

@[simp] theorem unspell_spell (bytes : List UInt8) : unspell (spell bytes) = bytes := by
  rw [unspell, spell, String.toList_ofList, List.map_map]
  exact List.map_id'' byteOf_ofUInt8 bytes

/-- Each character of the text spells a byte. -/
def SpellsBytes (s : String) : Prop := ∀ c ∈ s.toList, c.toNat < 0x100

theorem spell_unspell {s : String} (h : SpellsBytes s) : spell (unspell s) = s := by
  rw [← String.toList_inj, spell, unspell, String.toList_ofList, List.map_map]
  calc
    s.toList.map (Char.ofUInt8 ∘ byteOf) = s.toList.map id :=
      List.map_congr_left fun c hc => ofUInt8_byteOf (h c hc)
    _ = s.toList := List.map_id _

@[simp] theorem reading_bytewise (s : String) : reading (bytewise s) = s := by
  rw [reading, bytewise, unspell_spell, decode_encode]

theorem ofUInt8_toUInt8 {c : Char} (h : c.toNat < 0x100) : Char.ofUInt8 c.toUInt8 = c := by
  rw [← Char.toNat_inj, toNat_ofUInt8, toNat_toUInt8 h]

/-- The bytes of a text of characters of one byte are its characters. -/
theorem encode_of_forall_lt {s : String} (h : ∀ c ∈ s.toList, c.toNat < 0x80) :
    encode s = s.toList.map Char.toUInt8 := by
  rw [encode, List.map_eq_flatMap]
  exact List.flatMap_congr fun c hc => utf8EncodeChar_of_lt (h c hc)

/-- A text of characters of one byte is spelled as it is. -/
theorem bytewise_of_forall_lt {s : String} (h : ∀ c ∈ s.toList, c.toNat < 0x80) :
    bytewise s = s := by
  rw [← String.toList_inj, bytewise, spell, encode_of_forall_lt h, String.toList_ofList,
    List.map_map]
  calc
    s.toList.map (Char.ofUInt8 ∘ Char.toUInt8) = s.toList.map id :=
      List.map_congr_left fun c hc => ofUInt8_toUInt8 (Nat.lt_trans (h c hc) (by decide))
    _ = s.toList := List.map_id _

theorem toUInt8_ne {c : Char} (hc : c.toNat < 0x80) : c.toUInt8 ≠ 0xFF := by
  intro h
  have hval : c.toUInt8.toNat = 0xFF := by rw [h]; rfl
  rw [toNat_toUInt8 (by omega)] at hval
  omega

theorem mem_of_mem_reading {s : String} {c : Char} (hc : c.toNat < 0x80)
    (h : c ∈ (reading s).toList) : c ∈ s.toList := by
  obtain ⟨d, hd, hbyte⟩ := List.mem_map.mp (mem_of_mem_decode hc h)
  rwa [← ofUInt8_toUInt8 (Nat.lt_trans hc (by decide)),
    ← eq_ofUInt8_of_byteOf (toUInt8_ne hc) hbyte]

/-- A text of characters of one byte is read from its own spelling only. -/
theorem reading_eq_iff {s t : String} (ht : ∀ c ∈ t.toList, c.toNat < 0x80) :
    reading s = t ↔ s = t := by
  constructor
  · intro h
    have hnone : replacement ∉ (decode (unspell s)).toList := by
      change replacement ∉ (reading s).toList
      rw [h]
      exact fun hmem => absurd (ht _ hmem) (by decide)
    have hbytes : unspell s = t.toList.map Char.toUInt8 := by
      rw [← encode_of_forall_lt ht, ← h]
      exact (encode_decode hnone).symm
    have hspells : SpellsBytes s := by
      intro c hc
      have hmem : byteOf c ∈ t.toList.map Char.toUInt8 := hbytes ▸ List.mem_map_of_mem hc
      obtain ⟨d, hd, hbyte⟩ := List.mem_map.mp hmem
      rw [eq_ofUInt8_of_byteOf (toUInt8_ne (ht d hd)) hbyte.symm]
      exact toNat_ofUInt8_lt _
    rw [← spell_unspell hspells, hbytes, ← encode_of_forall_lt ht]
    exact bytewise_of_forall_lt ht
  · rintro rfl
    have hself := reading_bytewise s
    rwa [bytewise_of_forall_lt ht] at hself

end ModuleGraph.Text
