/-
This file shows that `parse_params` recovers the parameters of a well-formed header.
-/

import FastDownloader.Foundation.Stripping
import FastDownloader.Proof.Filename.Scan

namespace FastDownloader.Filename

open Foundation

/-- A token has visible ASCII without separators. -/
def isTokenChar (char : Char) : Bool :=
  0x21 ≤ char.toNat && char.toNat ≤ 0x7E && char ∉ "()<>@,;:\x22/[]?=\x7b\x7d\\".toList

structure Token where
  text : List Char
  nonempty : text ≠ []
  chars : ∀ char ∈ text, isTokenChar char = true

/-- Blanks are spaces and tabs. -/
structure Blanks where
  text : List Char
  blank : ∀ char ∈ text, char = ' ' ∨ char = '\t'

/-- A character between quotes may carry a backslash, and a quote or a backslash has to. -/
structure QuotedChar where
  escaped : Bool
  char : Char
  ascii : char.toNat < 0x80
  needed : char = '\x22' ∨ char = '\\' → escaped = true

inductive Written
  | quoted (chars : List QuotedChar)
  | bare (token : Token)

structure Field where
  before : Blanks
  after : Blanks
  name : Token
  beforeEq : Blanks
  afterEq : Blanks
  value : Written

def QuotedChar.text (quoted : QuotedChar) : List Char :=
  if quoted.escaped then ['\\', quoted.char] else [quoted.char]

def Written.text : Written → List Char
  | .quoted chars => '\x22' :: (chars.flatMap QuotedChar.text ++ ['\x22'])
  | .bare token => token.text

def Written.value : Written → List Char
  | .quoted chars => chars.map QuotedChar.char
  | .bare token => token.text

def Field.text (field : Field) : List Char :=
  field.before.text ++ ';' :: (field.after.text ++ (field.name.text ++ (field.beforeEq.text ++
    '=' :: (field.afterEq.text ++ field.value.text))))

def Field.param (field : Field) : Param := ⟨field.name.text, field.value.value⟩

variable {char : Char} {rest : List UInt8}

theorem isTokenChar_bounds (token : isTokenChar char = true) :
    0x21 ≤ char.toNat ∧ char.toNat ≤ 0x7E ∧ char ∉ "()<>@,;:\x22/[]?=\x7b\x7d\\".toList := by
  simp only [isTokenChar, Bool.and_eq_true, decide_eq_true_eq] at token
  exact ⟨token.1.1, token.1.2, token.2⟩

theorem toUInt8_ne {byte : UInt8} (narrow : char.toNat < 0x100) (different : char ≠ Char.ofUInt8 byte) :
    char.toUInt8 ≠ byte := by
  rintro rfl
  exact different (ofUInt8_toUInt8 narrow).symm

namespace Token

variable (token : Token)

theorem ascii : ∀ char ∈ token.text, char.toNat < 0x80 := fun char member =>
  Nat.lt_of_le_of_lt (isTokenChar_bounds (token.chars char member)).2.1 (by decide)

theorem encode_eq : encode token.text = token.text.map Char.toUInt8 := encode_ascii token.ascii

/-- A byte of a token is neither a blank nor a separator. -/
theorem byte_ne {byte : UInt8} (member : byte ∈ encode token.text) :
    isWs byte = false ∧ byte ≠ 0x22 ∧ byte ≠ 0x3B ∧ byte ≠ 0x3D := by
  rw [encode_eq] at member
  obtain ⟨char, inside, rfl⟩ := List.mem_map.mp member
  obtain ⟨low, high, separators⟩ := isTokenChar_bounds (token.chars char inside)
  have narrow : char.toNat < 0x100 := by omega
  have visible (blank : UInt8) (below : (Char.ofUInt8 blank).toNat < 0x21) : char.toUInt8 ≠ blank := by
    apply toUInt8_ne narrow
    rintro rfl
    omega
  have unseparated (separator : UInt8) (listed : Char.ofUInt8 separator ∈ "()<>@,;:\x22/[]?=\x7b\x7d\\".toList) :
      char.toUInt8 ≠ separator := by
    apply toUInt8_ne narrow
    rintro rfl
    exact separators listed
  have space := visible 0x20 (by decide)
  have tab := visible 0x09 (by decide)
  refine ⟨by simp [isWs, space, tab], unseparated 0x22 (by decide), unseparated 0x3B (by decide), ?_⟩
  exact unseparated 0x3D (by decide)

theorem inName {byte : UInt8} (member : byte ∈ encode token.text) : Filename.inName byte = true := by
  obtain ⟨blank, -, semicolon, equals⟩ := token.byte_ne member
  simp [Filename.inName, blank, semicolon, equals]

theorem encode_ne_nil : encode token.text ≠ [] := by
  rw [encode_eq]
  exact mt List.map_eq_nil_iff.mp token.nonempty

theorem isWhitespace_eq {char : Char} (member : char ∈ token.text) : isWhitespace char = false := by
  obtain ⟨low, high, -⟩ := isTokenChar_bounds (token.chars char member)
  simp only [isWhitespace, Bool.or_eq_false_iff, Bool.and_eq_false_iff, decide_eq_false_iff_not]
  omega

end Token

namespace Blanks

variable (blanks : Blanks)

theorem ascii : ∀ char ∈ blanks.text, char.toNat < 0x80 := by
  intro char member
  rcases blanks.blank char member with rfl | rfl <;> decide

theorem isWs {byte : UInt8} (member : byte ∈ encode blanks.text) : Filename.isWs byte = true := by
  rw [encode_ascii blanks.ascii] at member
  obtain ⟨char, inside, rfl⟩ := List.mem_map.mp member
  rcases blanks.blank char inside with rfl | rfl <;> rfl

theorem isWhitespace_eq {char : Char} (member : char ∈ blanks.text) : isWhitespace char = true := by
  rcases blanks.blank char member with rfl | rfl <;> rfl

end Blanks

/-- Trimming strips the blanks behind a token. -/
theorem trim_token (token : Token) (blanks : Blanks) : trim (token.text ++ blanks.text) = token.text := by
  have stripped := strip_around (List.forall_mem_nil _) (fun _ member => token.isWhitespace_eq member)
    fun _ member => blanks.isWhitespace_eq member
  rwa [List.nil_append] at stripped

/-- This is the character as an item of the scanner's loop. -/
def QuotedChar.item (quoted : QuotedChar) : Bool × UInt8 := (quoted.escaped, quoted.char.toUInt8)

theorem QuotedChar.ofUInt8_item (quoted : QuotedChar) : Char.ofUInt8 quoted.item.2 = quoted.char :=
  ofUInt8_toUInt8 (Nat.lt_trans quoted.ascii (by decide))

theorem encode_quoted (chars : List QuotedChar) :
    encode (chars.flatMap QuotedChar.text) = (chars.map QuotedChar.item).flatMap quotedByte := by
  induction chars with
  | nil => rfl
  | cons quoted chars ih =>
      have byte := utf8EncodeChar_ascii quoted.ascii
      rw [List.flatMap_cons, encode_append, ih, List.map_cons, List.flatMap_cons]
      congr 1
      unfold QuotedChar.text QuotedChar.item quotedByte
      cases quoted.escaped with
      | true =>
          rw [if_pos rfl, if_pos rfl, encode_cons, encode_cons, byte]
          rfl
      | false =>
          rw [if_neg Bool.false_ne_true, if_neg Bool.false_ne_true, encode_cons, byte]
          rfl

theorem parameterValue_quoted (chars : List QuotedChar) (rest : List UInt8) :
    parameterValue (encode (Written.quoted chars).text ++ rest) = some (chars.map QuotedChar.char, rest) := by
  have shape : encode (Written.quoted chars).text ++ rest =
      0x22 :: ((chars.map QuotedChar.item).flatMap quotedByte ++ 0x22 :: rest) := by
    rw [Written.text, encode_cons, encode_append, encode_quoted, List.append_assoc, List.append_assoc]
    rfl
  have needed : ∀ item ∈ chars.map QuotedChar.item, item.2 = 0x22 ∨ item.2 = 0x5C → item.1 = true := by
    intro item member special
    obtain ⟨quoted, -, rfl⟩ := List.mem_map.mp member
    apply quoted.needed
    rw [← quoted.ofUInt8_item]
    rcases special with same | same
    · left
      rw [same]
      rfl
    · right
      rw [same]
      rfl
  rw [shape, parameterValue_open, quotedString_items needed, List.map_map]
  congr 2
  apply List.map_congr_left
  intro quoted _
  exact quoted.ofUInt8_item

/-- A bare value is read without the blanks behind it. -/
theorem parameterValue_bare (token : Token) (blanks : Blanks) (ends : ∀ byte ∈ rest.head?, byte = 0x3B) :
    parameterValue (encode token.text ++ (encode blanks.text ++ rest)) = some (token.text, rest) := by
  obtain ⟨first, others, shape⟩ := List.exists_cons_of_ne_nil token.encode_ne_nil
  have unquoted : first ≠ 0x22 := (token.byte_ne (shape ▸ List.mem_cons_self)).2.1
  have inside : ∀ byte ∈ encode (token.text ++ blanks.text), (byte ≠ 0x3B : Bool) = true := by
    intro byte member
    rw [encode_append] at member
    apply decide_eq_true
    rcases List.mem_append.mp member with part | blank
    · exact (token.byte_ne part).2.2.1
    · rintro rfl
      exact absurd (blanks.isWs blank) (by decide)
  have split := span_append inside rest (by
    intro byte first
    rw [ends byte first]
    rfl)
  rw [← List.append_assoc, ← encode_append, parameterValue, split.1, split.2, decode_encode, Option.map_some, trim_token,
    if_neg]
  rw [encode_append, shape]
  exact fun same => unquoted (Option.some.inj same)

theorem scan_blanks (blanks : Blanks) (rest : List UInt8) : scan (encode blanks.text ++ rest) = scan rest := by
  apply scan_skip_all
  rintro _ blank rfl
  exact absurd (blanks.isWs blank) (by decide)

/-- What follows a value is scanned on as if it began at the next semicolon. -/
theorem parameterValue_written (value : Written) (blanks : Blanks) (ends : ∀ byte ∈ rest.head?, byte = 0x3B) :
    ∃ behind, parameterValue (encode value.text ++ (encode blanks.text ++ rest)) = some (value.value, behind) ∧
      scan behind = scan rest := by
  cases value with
  | quoted chars => exact ⟨_, parameterValue_quoted chars _, scan_blanks blanks rest⟩
  | bare token => exact ⟨rest, parameterValue_bare token blanks ends, rfl⟩

/-- The fields of a header begin with blanks and a semicolon. -/
theorem encode_fields (fields : List Field) :
    ∃ (blanks : Blanks) (rest : List UInt8), encode (fields.flatMap Field.text) = encode blanks.text ++ rest ∧
      ∀ byte ∈ rest.head?, byte = 0x3B := by
  cases fields with
  | nil => exact ⟨⟨[], nofun⟩, [], rfl, nofun⟩
  | cons field fields =>
      refine ⟨field.before, 0x3B :: (encode (field.after.text ++ (field.name.text ++ (field.beforeEq.text ++
        '=' :: (field.afterEq.text ++ field.value.text)))) ++ encode (fields.flatMap Field.text)), ?_, ?_⟩
      · rw [List.flatMap_cons, encode_append, Field.text, encode_append, encode_cons, List.append_assoc]
        rfl
      · intro byte first
        exact (Option.some.inj first).symm

/-- A name is read between any blanks. -/
theorem scan_named {after beforeEq afterEq : Blanks} {name : Token} {behind : List UInt8} {value : List Char}
    (begins : ∀ byte ∈ rest.head?, isWs byte = false) (read : parameterValue rest = some (value, behind)) :
    scan (0x3B :: (encode after.text ++ (encode name.text ++ (encode beforeEq.text ++
      0x3D :: (encode afterEq.text ++ rest))))) = (scan behind).map fun params => ⟨name.text, value⟩ :: params :=
  scan_param (fun _ => after.isWs) (fun _ => name.inName) name.encode_ne_nil (decode_encode _) (fun _ => beforeEq.isWs)
    (fun _ => afterEq.isWs) begins read

/-- The scanner reads each field as one parameter. -/
theorem scan_fields (fields : List Field) :
    scan (encode (fields.flatMap Field.text)) = some (fields.map Field.param) := by
  induction fields with
  | nil => rfl
  | cons field fields ih =>
      obtain ⟨blanks, rest, shape, ends⟩ := encode_fields fields
      obtain ⟨behind, read, later⟩ := parameterValue_written field.value blanks ends
      have written : encode ((field :: fields).flatMap Field.text) = encode field.before.text ++
          0x3B :: (encode field.after.text ++ (encode field.name.text ++ (encode field.beforeEq.text ++
            0x3D :: (encode field.afterEq.text ++ (encode field.value.text ++ (encode blanks.text ++ rest)))))) := by
        rw [List.flatMap_cons, encode_append, shape, Field.text]
        simp only [encode_append, encode_cons, List.append_assoc]
        rfl
      have begins : ∀ byte ∈ (encode field.value.text ++ (encode blanks.text ++ rest)).head?, isWs byte = false := by
        intro byte first
        cases value : field.value with
        | quoted chars =>
            rw [value] at first
            obtain rfl := Option.some.inj first
            rfl
        | bare token =>
            rw [value] at first
            obtain ⟨head, tail, same⟩ := List.exists_cons_of_ne_nil token.encode_ne_nil
            rw [Written.text, same] at first
            obtain rfl := Option.some.inj first
            exact (token.byte_ne (same ▸ List.mem_cons_self)).1
      rw [written, scan_blanks, scan_named begins read, later, ← scan_blanks blanks rest, ← shape, ih]
      rfl

/-- A disposition type is skipped up to its semicolon. -/
theorem scan_disposition {disposition : List Char} (unmarked : ';' ∉ disposition) (rest : List UInt8) :
    scan (encode disposition ++ rest) = scan rest := by
  apply scan_skip_all
  rintro _ member rfl
  exact unmarked (mem_of_mem_encode (by decide) member)

/-- Exactly the written parameters are recovered, in their order. -/
theorem parseParams_recovers {disposition : List Char} (unmarked : ';' ∉ disposition) (fields : List Field) :
    parseParams (disposition ++ fields.flatMap Field.text) = some (fields.map Field.param) := by
  rw [parseParams_eq_scan, encode_append, scan_disposition unmarked]
  exact scan_fields fields

/-- A semicolon and a quote inside a quoted value stay in it. -/
theorem parseParams_recovers_quoted :
    parseParams "attachment ;\tfilename= \x22;a\\\x22\x22 ; size=5".toList =
      some [⟨"filename".toList, ";a\x22".toList⟩, ⟨"size".toList, "5".toList⟩] :=
  parseParams_recovers (by decide : ';' ∉ "attachment".toList)
    [{ before := ⟨" ".toList, by decide⟩, after := ⟨"\t".toList, by decide⟩
       name := ⟨"filename".toList, by decide, by decide⟩
       beforeEq := ⟨[], by decide⟩, afterEq := ⟨" ".toList, by decide⟩
       value := .quoted [⟨false, ';', by decide, by decide⟩, ⟨false, 'a', by decide, by decide⟩,
         ⟨true, '\x22', by decide, by decide⟩] },
     { before := ⟨" ".toList, by decide⟩, after := ⟨" ".toList, by decide⟩
       name := ⟨"size".toList, by decide, by decide⟩
       beforeEq := ⟨[], by decide⟩, afterEq := ⟨[], by decide⟩
       value := .bare ⟨"5".toList, by decide, by decide⟩ }]

end FastDownloader.Filename
