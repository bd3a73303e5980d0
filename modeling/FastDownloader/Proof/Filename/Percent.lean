/-
This file decodes percent-encoded texts by the two laws of `percent_decode_str`.
-/

import FastDownloader.Model.Filename

namespace FastDownloader.Filename

open Foundation

/-- An escape needs two hexadecimal digits, and any other percent sign is copied. -/
def percentDecodeStr : List UInt8 → List UInt8
  | byte :: high :: low :: rest =>
      if byte = 0x25 then
        match hexDigitValue high, hexDigitValue low with
        | some upper, some lower => UInt8.ofNat (16 * upper + lower) :: percentDecodeStr rest
        | _, _ => byte :: percentDecodeStr (high :: low :: rest)
      else byte :: percentDecodeStr (high :: low :: rest)
  | bytes => bytes

def percentEncodingCrate : PercentDecoder where
  decode := percentDecodeStr
  decode_nil := rfl
  decode_escape := by
    intro high low upper lower rest first second
    rw [percentDecodeStr, if_pos rfl, first, second]
  decode_copy := by
    intro byte rest different
    rcases rest with _ | ⟨high, _ | ⟨low, rest⟩⟩
    · rfl
    · rfl
    · rw [percentDecodeStr, if_neg different]

/-- These are the characters that need no escape in an extended value. -/
def isAttrChar (char : Char) : Bool :=
  char.isAlphanum || char ∈ "!#$&+-.^_\x60|~".toList

/-- A text stands for bytes. Every other byte is escaped, and these characters may be. -/
inductive PercentEncoding : List UInt8 → List Char → Prop
  | nil : PercentEncoding [] []
  | raw {bytes : List UInt8} {text : List Char} (char : Char) (attr : isAttrChar char = true) :
      PercentEncoding bytes text → PercentEncoding (char.toUInt8 :: bytes) (char :: text)
  | escaped {bytes : List UInt8} {text : List Char} (high low : UInt8) (upper lower : Nat) :
      hexDigitValue high = some upper → hexDigitValue low = some lower → PercentEncoding bytes text →
      PercentEncoding (UInt8.ofNat (16 * upper + lower) :: bytes) ('%' :: Char.ofUInt8 high :: Char.ofUInt8 low :: text)

variable {percent : PercentDecoder} {bytes : List UInt8} {text : List Char}

/-- Bytes without an escape are copied. -/
theorem decode_plain (percent : PercentDecoder) (plain : 0x25 ∉ bytes) : percent.decode bytes = bytes := by
  induction bytes with
  | nil => exact percent.decode_nil
  | cons byte bytes ih =>
      rw [List.mem_cons, not_or] at plain
      rw [percent.decode_copy byte bytes (Ne.symm plain.1), ih plain.2]

theorem encode_ofUInt8 {byte : UInt8} (ascii : byte.toNat < 0x80) : String.utf8EncodeChar (Char.ofUInt8 byte) = [byte] := by
  have narrow : (Char.ofUInt8 byte).toNat < 0x80 := by
    change byte.toUInt32.toNat < 0x80
    rwa [UInt8.toNat_toUInt32]
  rw [utf8EncodeChar_ascii narrow, toUInt8_ofUInt8]

theorem ascii_of_hexDigitValue {digit : UInt8} {value : Nat} (read : hexDigitValue digit = some value) :
    digit.toNat < 0x80 := by
  unfold hexDigitValue at read
  simp only [Bool.and_eq_true, decide_eq_true_eq, UInt8.le_iff_toNat_le, UInt8.reduceToNat] at read
  split_ifs at read <;> omega

theorem ascii_of_isAttrChar {char : Char} (attr : isAttrChar char = true) : char.toNat < 0x80 ∧ char ≠ '%' := by
  constructor
  · rw [isAttrChar, Bool.or_eq_true, decide_eq_true_eq] at attr
    rcases attr with alphanumeric | listed
    · delta Char.isAlphanum Char.isAlpha Char.isUpper Char.isLower Char.isDigit at alphanumeric
      simp only [Bool.or_eq_true, Bool.and_eq_true, decide_eq_true_eq, UInt32.le_iff_toNat_le] at alphanumeric
      have ends : 'Z'.val.toNat < 0x80 ∧ 'z'.val.toNat < 0x80 ∧ '9'.val.toNat < 0x80 := by decide
      change char.val.toNat < 0x80
      omega
    · have all : ∀ other ∈ "!#$&+-.^_\x60|~".toList, other.toNat < 0x80 := by decide
      exact all char listed
  · rintro rfl
    exact absurd attr (by decide)

/-- Decoding gives back the bytes that were encoded. -/
theorem PercentEncoding.decode (encoding : PercentEncoding bytes text) (percent : PercentDecoder) :
    percent.decode (encode text) = bytes := by
  induction encoding with
  | nil => exact percent.decode_nil
  | raw char attr _ ih =>
      obtain ⟨ascii, unescaped⟩ := ascii_of_isAttrChar attr
      have other : char.toUInt8 ≠ 0x25 := by
        intro same
        have back := ofUInt8_toUInt8 (Nat.lt_trans ascii (by decide))
        rw [same] at back
        exact unescaped back.symm
      rw [encode_cons, utf8EncodeChar_ascii ascii, List.singleton_append, percent.decode_copy _ _ other, ih]
  | escaped high low upper lower first second _ ih =>
      have written (rest : List Char) : encode ('%' :: Char.ofUInt8 high :: Char.ofUInt8 low :: rest) =
          0x25 :: high :: low :: encode rest := by
        rw [encode_cons, encode_cons, encode_cons, encode_ofUInt8 (ascii_of_hexDigitValue first),
          encode_ofUInt8 (ascii_of_hexDigitValue second)]
        rfl
      rw [written, percent.decode_escape high low upper lower _ first second, ih]

end FastDownloader.Filename
