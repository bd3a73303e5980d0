/-
This file writes texts as bytes in UTF-8 and reads them back.
-/

import FastDownloader.Foundation.Utf8

namespace FastDownloader.Foundation

def encode (text : List Char) : List UInt8 := text.flatMap String.utf8EncodeChar

def isContinuation (byte : UInt8) : Bool := 0x80 ≤ byte && byte ≤ 0xBF

/-- The two bytes begin a sequence of three or four bytes. -/
def opensSequence (first second : UInt8) : Bool :=
  if first = 0xE0 then 0xA0 ≤ second && second ≤ 0xBF
  else if first = 0xED then 0x80 ≤ second && second ≤ 0x9F
  else if first = 0xF0 then 0x90 ≤ second && second ≤ 0xBF
  else if first = 0xF4 then 0x80 ≤ second && second ≤ 0x8F
  else 0xE1 ≤ first && first ≤ 0xF3 && isContinuation second

/-- One replacement character stands for the bytes that could have begun a sequence, or else for one byte. -/
def malformedLen : List UInt8 → Nat
  | first :: second :: third :: _ =>
      if opensSequence first second then if 0xF0 ≤ first && isContinuation third then 3 else 2 else 1
  | [first, second] => if opensSequence first second then 2 else 1
  | _ => 1

def decodeFrom : Nat → List UInt8 → List Char
  | 0, _ => []
  | _, [] => []
  | fuel + 1, bytes =>
      match bytes.toByteArray.utf8DecodeChar? 0 with
      | some char => char :: decodeFrom fuel (bytes.drop char.utf8Size)
      | none => '\uFFFD' :: decodeFrom fuel (bytes.drop (malformedLen bytes))

/-- Malformed bytes are read as replacement characters. -/
def decodeLossy (bytes : List UInt8) : List Char := decodeFrom bytes.length bytes

/-- The result is absent when some bytes are malformed. -/
def decode (bytes : List UInt8) : Option (List Char) :=
  if encode (decodeLossy bytes) = bytes then some (decodeLossy bytes) else none

variable {text : List Char} {char : Char} {byte : UInt8}

@[simp] theorem encode_nil : encode [] = [] := rfl

@[simp] theorem encode_cons (char : Char) (text : List Char) :
    encode (char :: text) = String.utf8EncodeChar char ++ encode text := rfl

@[simp] theorem encode_append (front rest : List Char) : encode (front ++ rest) = encode front ++ encode rest :=
  List.flatMap_append

theorem length_encode (text : List Char) : (encode text).length = byteLen text := by
  induction text with
  | nil => rfl
  | cons char text ih => rw [encode_cons, List.length_append, ih, byteLen_cons, String.length_utf8EncodeChar]

theorem decodeFrom_encode {fuel : Nat} (enough : (encode text).length ≤ fuel) : decodeFrom fuel (encode text) = text := by
  induction text generalizing fuel with
  | nil => cases fuel <;> rfl
  | cons char text ih =>
      have size := String.length_utf8EncodeChar char
      have positive := char.utf8Size_pos
      rw [encode_cons, List.length_append] at enough
      obtain ⟨fuel, rfl⟩ : ∃ less, fuel = less + 1 := Nat.exists_eq_succ_of_ne_zero (by omega)
      obtain ⟨first, others, shape⟩ := List.exists_cons_of_ne_nil (String.utf8EncodeChar_ne_nil (c := char))
      have read : (encode (char :: text)).toByteArray.utf8DecodeChar? 0 = some char := by
        rw [encode_cons, List.toByteArray_append]
        exact ByteArray.utf8DecodeChar?_utf8EncodeChar_append
      have later : (encode (char :: text)).drop char.utf8Size = encode text := by
        rw [encode_cons]
        exact List.drop_left' size
      have unfolded : decodeFrom (fuel + 1) (encode (char :: text)) =
          char :: decodeFrom fuel ((encode (char :: text)).drop char.utf8Size) := by
        rw [decodeFrom, read]
        rw [encode_cons, shape]
        exact List.cons_ne_nil _ _
      rw [unfolded, later, ih (by omega)]

/-- What was written is read back. -/
theorem decodeLossy_encode (text : List Char) : decodeLossy (encode text) = text := decodeFrom_encode (Nat.le_refl _)

theorem decode_encode (text : List Char) : decode (encode text) = some text := by
  rw [decode, decodeLossy_encode, if_pos rfl]

theorem utf8EncodeChar_ascii (ascii : char.toNat < 0x80) : String.utf8EncodeChar char = [char.toUInt8] := by
  have small : char.val.toNat ≤ 0x7f := Nat.le_of_lt_succ ascii
  unfold String.utf8EncodeChar
  rw [if_pos small]
  rfl

/-- The bytes of a wide character are no ASCII. -/
theorem high_of_mem_utf8EncodeChar (wide : 0x80 ≤ char.toNat) (member : byte ∈ String.utf8EncodeChar char) :
    0x80 ≤ byte.toNat := by
  have large : ¬ char.val.toNat ≤ 0x7f := Nat.not_le.mpr wide
  have bounded : char.val.toNat < 0x110000 := by
    rcases char.valid with low | high
    · exact Nat.lt_trans low (by decide)
    · exact high.2
  unfold String.utf8EncodeChar at member
  rw [if_neg large] at member
  split_ifs at member <;> simp only [List.mem_cons, List.not_mem_nil, or_false] at member
  · rcases member with rfl | rfl <;> simp only [UInt8.toNat_ofNat'] <;> omega
  · rcases member with rfl | rfl | rfl <;> simp only [UInt8.toNat_ofNat'] <;> omega
  · rcases member with rfl | rfl | rfl | rfl <;> simp only [UInt8.toNat_ofNat'] <;> omega

theorem encode_ascii (ascii : ∀ char ∈ text, char.toNat < 0x80) : encode text = text.map Char.toUInt8 := by
  induction text with
  | nil => rfl
  | cons char text ih =>
      rw [encode_cons, utf8EncodeChar_ascii (ascii char List.mem_cons_self),
        ih fun other member => ascii other (List.mem_cons_of_mem char member)]
      rfl

theorem toUInt8_ofUInt8 (byte : UInt8) : (Char.ofUInt8 byte).toUInt8 = byte := by
  apply UInt8.toNat_inj.mp
  change byte.toUInt32.toUInt8.toNat = byte.toNat
  rw [UInt32.toNat_toUInt8, UInt8.toNat_toUInt32]
  exact Nat.mod_eq_of_lt byte.toNat_lt

theorem ofUInt8_toUInt8 (narrow : char.toNat < 0x100) : Char.ofUInt8 char.toUInt8 = char := by
  apply Char.ext
  apply UInt32.toNat_inj.mp
  have small : char.val.toNat < 256 := narrow
  change char.val.toUInt8.toUInt32.toNat = char.val.toNat
  rw [UInt8.toNat_toUInt32, UInt32.toNat_toUInt8]
  exact Nat.mod_eq_of_lt small

/-- An ASCII byte of a text is one of its characters. -/
theorem mem_of_mem_encode (ascii : byte.toNat < 0x80) (member : byte ∈ encode text) : Char.ofUInt8 byte ∈ text := by
  obtain ⟨char, inside, part⟩ := List.mem_flatMap.mp member
  by_cases narrow : char.toNat < 0x80
  · rw [utf8EncodeChar_ascii narrow, List.mem_singleton] at part
    rw [part, ofUInt8_toUInt8 (by omega)]
    exact inside
  · have high := high_of_mem_utf8EncodeChar (Nat.le_of_not_lt narrow) part
    omega

end FastDownloader.Foundation
