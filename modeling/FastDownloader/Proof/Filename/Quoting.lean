/-
This file compares the quoted form of a file name with the bare one.
-/

import FastDownloader.Proof.Filename.Percent
import FastDownloader.Proof.Filename.Params

namespace FastDownloader.Filename

open Foundation

/-- Double quotes and backslashes are escaped. -/
def quotedText (value : List Char) : List Char :=
  value.flatMap fun char => if char = '\x22' ∨ char = '\\' then ['\\', char] else [char]

def bareHeader (value : List Char) : List Char := "attachment; filename=".toList ++ value

def quotedHeader (value : List Char) : List Char := bareHeader ('\x22' :: (quotedText value ++ ['\x22']))

/-- Such a value may be written without quotes. -/
structure Bare (value : List Char) : Prop where
  unmarked : ';' ∉ value
  unopened : value.head? ≠ some '\x22'
  trimmed : trim value = value

variable {value : List Char} {percent : PercentDecoder}

/-- This is the byte as an item of the scanner's loop. -/
def quotedItem (byte : UInt8) : Bool × UInt8 := (byte = 0x22 ∨ byte = 0x5C, byte)

/-- Bytes without quotes and backslashes are copied. -/
theorem quotedByte_plain {bytes : List UInt8} (plain : ∀ byte ∈ bytes, ¬ (byte = 0x22 ∨ byte = 0x5C)) :
    (bytes.map quotedItem).flatMap quotedByte = bytes := by
  induction bytes with
  | nil => rfl
  | cons byte bytes ih =>
      rw [List.map_cons, List.flatMap_cons, ih fun other member => plain other (List.mem_cons_of_mem _ member),
        quotedByte, if_neg]
      · rfl
      · simpa [quotedItem] using plain byte List.mem_cons_self

/-- No byte of a wide character is a quote or a backslash. -/
theorem special_of_mem_utf8 {char : Char} {byte : UInt8} (member : byte ∈ String.utf8EncodeChar char)
    (special : byte = 0x22 ∨ byte = 0x5C) : char = '\x22' ∨ char = '\\' := by
  have inside : Char.ofUInt8 byte ∈ [char] := by
    apply mem_of_mem_encode
    · rcases special with rfl | rfl <;> decide
    · rw [encode_cons, encode_nil, List.append_nil]
      exact member
  rw [List.mem_singleton] at inside
  rw [← inside]
  exact special.imp (fun quote => by rw [quote]; rfl) fun backslash => by rw [backslash]; rfl

/-- The escapes stand before the same bytes. -/
theorem encode_quotedText (value : List Char) :
    encode (quotedText value) = ((encode value).map quotedItem).flatMap quotedByte := by
  induction value with
  | nil => rfl
  | cons char value ih =>
      have step : quotedText (char :: value) =
          (if char = '\x22' ∨ char = '\\' then ['\\', char] else [char]) ++ quotedText value := rfl
      rw [step, encode_append, ih, encode_cons, List.map_append, List.flatMap_append]
      congr 1
      split_ifs with special
      · rcases special with rfl | rfl <;> rfl
      · rw [quotedByte_plain fun byte member found => special (special_of_mem_utf8 member found), encode_cons,
          encode_nil, List.append_nil]

/-- The header has one parameter. -/
theorem parseParams_bareHeader {written read : List Char} (begins : ∀ byte ∈ (encode written).head?, isWs byte = false)
    (parsed : parameterValue (encode written) = some (read, [])) :
    parseParams (bareHeader written) = some [⟨"filename".toList, read⟩] := by
  let space : Blanks := ⟨" ".toList, by decide⟩
  let none : Blanks := ⟨[], nofun⟩
  let name : Token := ⟨"filename".toList, by decide, by decide⟩
  have header : bareHeader written = "attachment".toList ++ ';' :: (space.text ++ (name.text ++ (none.text ++
      '=' :: (none.text ++ written)))) := rfl
  rw [parseParams_eq_scan, header, encode_append, scan_disposition (by decide)]
  simp only [encode_cons, encode_append]
  exact (scan_named begins parsed).trans rfl

theorem parseContentDisposition_bareHeader {written read : List Char}
    (begins : ∀ byte ∈ (encode written).head?, isWs byte = false)
    (parsed : parameterValue (encode written) = some (read, [])) (nonempty : read ≠ []) (plain : 0x25 ∉ encode read) :
    parseContentDisposition percent (bareHeader written) = some (some read) := by
  rw [parseContentDisposition, parseParams_bareHeader begins parsed, Option.map_some]
  congr 1
  have extended : eqAscii "filename".toList "filename*".toList = false := by decide
  have regular : eqAscii "filename".toList "filename".toList = true := by decide
  rw [List.find?_singleton, List.find?_singleton, extended, regular, if_neg Bool.false_ne_true, if_pos rfl,
    Option.bind_none, Option.none_or, Option.bind_some, decodeRegularValue, if_neg nonempty, decode_plain percent plain,
    decodeLossy_encode]

theorem parameterValue_quotedText (value : List Char) :
    parameterValue (encode ('\x22' :: (quotedText value ++ ['\x22']))) = some ((encode value).map Char.ofUInt8, []) := by
  have needed : ∀ item ∈ (encode value).map quotedItem, item.2 = 0x22 ∨ item.2 = 0x5C → item.1 = true := by
    intro item member special
    obtain ⟨byte, -, rfl⟩ := List.mem_map.mp member
    exact decide_eq_true special
  have read := quotedString_items needed []
  rw [List.map_map] at read
  rw [encode_cons, encode_append, encode_quotedText]
  exact congrArg some read

/-- Between quotes each byte of the UTF-8 form becomes a character of its own. -/
theorem parse_quotedHeader (percent : PercentDecoder) (nonempty : value ≠ []) (plain : '%' ∉ value) :
    parseContentDisposition percent (quotedHeader value) = some (some ((encode value).map Char.ofUInt8)) := by
  apply parseContentDisposition_bareHeader _ (parameterValue_quotedText value)
  · intro same
    have empty := congrArg List.length (List.map_eq_nil_iff.mp same)
    rw [length_encode] at empty
    exact (byteLen_pos nonempty).ne' empty
  · intro escape
    obtain ⟨byte, member, same⟩ := List.mem_map.mp (mem_of_mem_encode (by decide) escape)
    have back := congrArg Char.toUInt8 same
    rw [toUInt8_ofUInt8, toUInt8_ofUInt8] at back
    subst back
    exact plain (mem_of_mem_encode (by decide) member)
  · intro byte first
    obtain rfl := Option.some.inj first
    rfl

namespace Bare

theorem unstripped (bare : Bare value) : ∀ char ∈ value.head?, isWhitespace char = false := by
  intro char first
  obtain ⟨rest, rfl⟩ := List.head?_eq_some_iff.mp first
  rw [← Bool.not_eq_true]
  intro blank
  have shorter := (List.dropWhile_suffix isWhitespace (l := rest)).length_le
  have prefix_ := ( List.rdropWhile_prefix isWhitespace (l := rest.dropWhile isWhitespace)).length_le
  have trimmed := congrArg List.length bare.trimmed
  rw [trim, List.dropWhile_cons, if_pos blank, List.length_cons] at trimmed
  omega

/-- The first byte of a bare value opens no quotes and is no blank. -/
theorem head_ne (bare : Bare value) : ∀ byte ∈ (encode value).head?, byte ≠ 0x22 ∧ isWs byte = false := by
  intro byte first
  cases value with
  | nil => cases first
  | cons char rest =>
      have member : byte ∈ String.utf8EncodeChar char := by
        obtain ⟨head, others, shape⟩ := List.exists_cons_of_ne_nil (String.utf8EncodeChar_ne_nil (c := char))
        rw [encode_cons, shape] at first
        obtain rfl := Option.some.inj first
        exact shape ▸ List.mem_cons_self
      have ascii (narrow : byte.toNat < 0x80) : Char.ofUInt8 byte = char := by
        apply List.mem_singleton.mp
        apply mem_of_mem_encode narrow
        rw [encode_cons, encode_nil, List.append_nil]
        exact member
      have visible := bare.unstripped char rfl
      have other (blank : UInt8) (narrow : blank.toNat < 0x80) (white : isWhitespace (Char.ofUInt8 blank) = true) :
          byte ≠ blank := by
        rintro rfl
        rw [ascii narrow, visible] at white
        cases white
      constructor
      · rintro rfl
        exact bare.unopened (congrArg some (ascii (by decide)).symm)
      · rw [isWs, Bool.or_eq_false_iff]
        constructor
        · exact decide_eq_false (other 0x20 (by decide) (by decide))
        · exact decide_eq_false (other 0x09 (by decide) (by decide))

theorem parameterValue_eq (bare : Bare value) : parameterValue (encode value) = some (value, []) := by
  have inside : ∀ byte ∈ encode value, (byte ≠ 0x3B : Bool) = true := by
    intro byte member
    apply decide_eq_true
    rintro rfl
    exact bare.unmarked (mem_of_mem_encode (by decide) member)
  have split := span_append inside [] nofun
  rw [List.append_nil] at split
  rw [parameterValue, split.1, split.2, decode_encode, Option.map_some, bare.trimmed, if_neg]
  intro opened
  exact (bare.head_ne _ opened).1 rfl

/-- A bare value is read as it is. -/
theorem parse_bareHeader (bare : Bare value) (percent : PercentDecoder) (nonempty : value ≠ []) (plain : '%' ∉ value) :
    parseContentDisposition percent (bareHeader value) = some (some value) := by
  apply parseContentDisposition_bareHeader _ bare.parameterValue_eq nonempty
  · intro escape
    exact plain (mem_of_mem_encode (by decide) escape)
  · intro byte first
    exact (bare.head_ne byte first).2

end Bare

/-- A text is as long as its UTF-8 form when it is ASCII. -/
theorem map_ofUInt8_eq_iff (value : List Char) :
    (encode value).map Char.ofUInt8 = value ↔ ∀ char ∈ value, char.toNat < 0x80 := by
  constructor
  · intro same
    have length := congrArg List.length same
    rw [List.length_map, length_encode] at length
    clear same
    induction value with
    | nil => nofun
    | cons char value ih =>
        have least := length_le_byteLen value
        have positive := char.utf8Size_pos
        rw [byteLen_cons, List.length_cons] at length
        have single : char.utf8Size = 1 := by omega
        intro other member
        rcases List.mem_cons.mp member with rfl | later
        · exact Nat.lt_succ_of_le (UInt32.le_iff_toNat_le.mp (Char.utf8Size_eq_one_iff.mp single))
        · exact ih (by omega) other later
  · intro ascii
    rw [encode_ascii ascii, List.map_map]
    conv_rhs => rw [← List.map_id value]
    apply List.map_congr_left
    intro char member
    exact ofUInt8_toUInt8 (Nat.lt_trans (ascii char member) (by decide))

/-- Quoting keeps a file name, and agrees with the bare form, just when the name is ASCII. -/
theorem quoting_faithful_iff (percent : PercentDecoder) (value : List Char) (nonempty : value ≠ []) (plain : '%' ∉ value) :
    (parseContentDisposition percent (quotedHeader value) = some (some value) ∧
      (Bare value → parseContentDisposition percent (quotedHeader value) =
        parseContentDisposition percent (bareHeader value))) ↔ ∀ char ∈ value, char.toNat < 0x80 := by
  rw [parse_quotedHeader percent nonempty plain, ← map_ofUInt8_eq_iff]
  constructor
  · rintro ⟨same, -⟩
    exact Option.some.inj (Option.some.inj same)
  · intro same
    constructor
    · rw [same]
    · intro bare
      rw [bare.parse_bareHeader percent nonempty plain, same]

theorem quoting_faithful_iff_ascii :
    (parseContentDisposition percentEncodingCrate (quotedHeader "a\x22b".toList) = some (some "a\x22b".toList) ∧
      (Bare "a\x22b".toList → parseContentDisposition percentEncodingCrate (quotedHeader "a\x22b".toList) =
        parseContentDisposition percentEncodingCrate (bareHeader "a\x22b".toList))) ↔
      ∀ char ∈ "a\x22b".toList, char.toNat < 0x80 :=
  quoting_faithful_iff percentEncodingCrate "a\x22b".toList (by decide) (by decide)

/-- The bare form keeps an accent that the quoted form turns into two characters. -/
theorem quoting_unfaithful :
    Bare ['é'] ∧ parseContentDisposition percentEncodingCrate (bareHeader ['é']) = some (some ['é']) ∧
      parseContentDisposition percentEncodingCrate (quotedHeader ['é']) = some (some ['Ã', '©']) ∧
      parseContentDisposition percentEncodingCrate (quotedHeader ['é']) ≠ some (some ['é']) := by
  have bare : Bare ['é'] := ⟨by decide, by decide, by decide⟩
  have quoted := parse_quotedHeader percentEncodingCrate (by decide : ['é'] ≠ []) (by decide)
  have kept := bare.parse_bareHeader percentEncodingCrate (by decide) (by decide)
  refine ⟨bare, kept, quoted, ?_⟩
  rw [quoted]
  decide

end FastDownloader.Filename
