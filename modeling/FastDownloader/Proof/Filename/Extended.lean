/-
This file shows that the extended form of a file name is read back.
-/

import FastDownloader.Proof.Filename.Percent
import FastDownloader.Proof.Filename.Params

namespace FastDownloader.Filename

open Foundation

/-- The label of a charset, in any case, says how a name became bytes. -/
inductive LabelledBytes (charset name : List Char) : List UInt8 → Prop
  | utf8 (label : charset.map Char.toLower ∈ ["".toList, "utf-8".toList, "utf8".toList]) :
      LabelledBytes charset name (encode name)
  | latin (label : charset.map Char.toLower ∈ ["iso-8859-1".toList, "latin-1".toList])
      (narrow : ∀ char ∈ name, char.toNat ≤ 0xFF) : LabelledBytes charset name (name.map Char.toUInt8)

/-- This is an extended value of a name. -/
structure ExtValue (name : List Char) where
  charset : List Char
  lang : List Char
  encoded : List Char
  bytes : List UInt8
  labelled : LabelledBytes charset name bytes
  tagged : ∀ char ∈ lang, char.isAlphanum = true ∨ char = '-'
  encoding : PercentEncoding bytes encoded

def ExtValue.text {name : List Char} (value : ExtValue name) : List Char :=
  value.charset ++ '\x27' :: (value.lang ++ '\x27' :: value.encoded)

variable {name charset : List Char} {bytes : List UInt8}

/-- The first mark splits a text. -/
theorem splitOnce_append {mark : Char} {front : List Char} (unmarked : mark ∉ front) (rest : List Char) :
    splitOnce mark (front ++ mark :: rest) = some (front, rest) := by
  have inside : ∀ char ∈ front, (char ≠ mark : Bool) = true := by
    intro char member
    apply decide_eq_true
    rintro rfl
    exact unmarked member
  rw [splitOnce, if_pos (List.mem_append_right _ List.mem_cons_self), List.takeWhile_append_of_pos inside,
    List.dropWhile_append_of_pos inside]
  simp

namespace LabelledBytes

theorem unquoted (labelled : LabelledBytes charset name bytes) : '\x27' ∉ charset := by
  intro member
  have lowered : '\x27' ∈ charset.map Char.toLower := List.mem_map_of_mem (f := Char.toLower) member
  cases labelled with
  | utf8 label =>
      have all : ∀ text ∈ ["".toList, "utf-8".toList, "utf8".toList], '\x27' ∉ text := by decide
      exact all _ label lowered
  | latin label narrow =>
      have all : ∀ text ∈ ["iso-8859-1".toList, "latin-1".toList], '\x27' ∉ text := by decide
      exact all _ label lowered

theorem bytes_ne_nil (labelled : LabelledBytes charset name bytes) (nonempty : name ≠ []) : bytes ≠ [] := by
  cases labelled with
  | utf8 label =>
      intro same
      have empty := congrArg List.length same
      rw [length_encode] at empty
      exact (byteLen_pos nonempty).ne' empty
  | latin label narrow => exact mt List.map_eq_nil_iff.mp nonempty

/-- The charset's branch of the code reads the bytes as the name. -/
theorem decoded (labelled : LabelledBytes charset name bytes) :
    (if charset.map Char.toLower ∈ ["".toList, "utf-8".toList, "utf8".toList] then decodeLossy bytes
      else if charset.map Char.toLower ∈ ["iso-8859-1".toList, "latin-1".toList] then bytes.map Char.ofUInt8
      else decodeLossy bytes) = name := by
  cases labelled with
  | utf8 label => rw [if_pos label, decodeLossy_encode]
  | latin label narrow =>
      have apart : ∀ text ∈ ["iso-8859-1".toList, "latin-1".toList],
          text ∉ ["".toList, "utf-8".toList, "utf8".toList] := by decide
      rw [if_neg (apart _ label), if_pos label, List.map_map]
      conv_rhs => rw [← List.map_id name]
      apply List.map_congr_left
      intro char member
      exact ofUInt8_toUInt8 (Nat.lt_succ_of_le (narrow char member))

end LabelledBytes

theorem decodeExtValue_text (percent : PercentDecoder) (value : ExtValue name) (nonempty : name ≠ []) :
    decodeExtValue percent value.text = some name := by
  have untagged : '\x27' ∉ value.lang := by
    intro member
    rcases value.tagged _ member with alphanumeric | hyphen
    · exact absurd alphanumeric (by decide)
    · exact absurd hyphen (by decide)
  have bytes := value.encoding.decode percent
  have written : value.encoded ≠ [] := by
    intro same
    rw [same, encode_nil, percent.decode_nil] at bytes
    exact value.labelled.bytes_ne_nil nonempty bytes.symm
  rw [decodeExtValue, ExtValue.text, splitOnce_append value.labelled.unquoted, Option.bind_some]
  dsimp only
  rw [splitOnce_append untagged, Option.bind_some]
  dsimp only
  rw [if_neg written, bytes, value.labelled.decoded, if_neg nonempty]

/-- The extended form of a name is read back from among any other parameters. -/
theorem extended_round_trip (percent : PercentDecoder) {disposition : List Char} (unmarked : ';' ∉ disposition)
    (before after : List Field) (extended : Field) (value : ExtValue name) (nonempty : name ≠ [])
    (named : eqAscii extended.name.text "filename*".toList = true) (written : extended.value.value = value.text)
    (alone : ∀ field ∈ before ++ after, eqAscii field.name.text "filename*".toList = false) :
    parseContentDisposition percent (disposition ++ (before ++ extended :: after).flatMap Field.text) =
      some (some name) := by
  have params : parseParams (disposition ++ (before ++ extended :: after).flatMap Field.text) =
      some (before.map Field.param ++ extended.param :: after.map Field.param) := by
    rw [parseParams_eq_scan, encode_append, scan_disposition unmarked, scan_fields, List.map_append, List.map_cons]
  have missed : (before.map Field.param).find? (fun param => eqAscii param.name "filename*".toList) = none := by
    rw [List.find?_eq_none]
    intro param member
    obtain ⟨field, listed, rfl⟩ := List.mem_map.mp member
    rw [Bool.not_eq_true]
    exact alone field (List.mem_append_left after listed)
  have found : (before.map Field.param ++ extended.param :: after.map Field.param).find?
      (fun param => eqAscii param.name "filename*".toList) = some extended.param := by
    rw [List.find?_append, missed, Option.none_or]
    exact List.find?_cons_of_pos named
  have read : decodeExtValue percent extended.param.value = some name := by
    rw [Field.param, written]
    exact decodeExtValue_text percent value nonempty
  rw [parseContentDisposition, params, Option.map_some, found, Option.bind_some, read, Option.some_or]

/-- The regular form before it plays no part. -/
theorem extended_round_trip_accent :
    parseContentDisposition percentEncodingCrate "attachment; filename=e; FileName*=Utf-8'en'%c3%A9".toList =
      some (some ['é']) :=
  extended_round_trip percentEncodingCrate (by decide : ';' ∉ "attachment".toList)
    [{ before := ⟨[], by decide⟩, after := ⟨" ".toList, by decide⟩
       name := ⟨"filename".toList, by decide, by decide⟩
       beforeEq := ⟨[], by decide⟩, afterEq := ⟨[], by decide⟩
       value := .bare ⟨"e".toList, by decide, by decide⟩ }] []
    { before := ⟨[], by decide⟩, after := ⟨" ".toList, by decide⟩
      name := ⟨"FileName*".toList, by decide, by decide⟩
      beforeEq := ⟨[], by decide⟩, afterEq := ⟨[], by decide⟩
      value := .bare ⟨"Utf-8'en'%c3%A9".toList, by decide, by decide⟩ }
    { charset := "Utf-8".toList, lang := "en".toList, encoded := "%c3%A9".toList, bytes := encode ['é']
      labelled := .utf8 (by decide)
      tagged := by decide
      encoding := .escaped 0x63 0x33 12 3 (by decide) (by decide)
        (.escaped 0x41 0x39 10 9 (by decide) (by decide) .nil) }
    (by decide) (by decide) rfl (by decide)

end FastDownloader.Filename
