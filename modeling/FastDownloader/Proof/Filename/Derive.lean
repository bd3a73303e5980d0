/-
This file shows that a file name is derived from any header and any URL.
-/

import FastDownloader.Foundation.Cutting
import FastDownloader.Proof.Filename.Sanitize
import FastDownloader.Proof.Filename.Scan

namespace FastDownloader.Filename

open Foundation

/-- A value between quotes has a character for each byte. Another value is stripped and has no semicolon. -/
def AcceptedValue (value : List Char) : Prop :=
  (∀ char ∈ value, char.toNat < 0x100) ∨
    (';' ∉ value ∧ (∀ char ∈ value.head?, isWhitespace char = false) ∧
      ∀ char ∈ value.getLast?, isWhitespace char = false)

/-- What the parser takes for a parameter has a name. -/
structure Accepted (param : Param) : Prop where
  named : param.name ≠ []
  name : ∀ char ∈ param.name, char ≠ '=' ∧ char ≠ ';' ∧ char ≠ ' ' ∧ char ≠ '\t'
  value : AcceptedValue param.value

variable {bytes front : List UInt8}

theorem ascii_of_isWs {byte : UInt8} (blank : isWs byte = true) : byte.toNat < 0x80 := by
  rcases (by simpa [isWs] using blank : byte = 0x20 ∨ byte = 0x09) with rfl | rfl <;> decide

theorem ascii_of_inName {byte : UInt8} (stops : inName byte = false) : byte.toNat < 0x80 := by
  rw [inName, Bool.and_eq_false_iff, Bool.and_eq_false_iff, Bool.not_eq_false'] at stops
  obtain (equals | semicolon) | blank := stops
  · obtain rfl : byte = 0x3D := by simpa using equals
    decide
  · obtain rfl : byte = 0x3B := by simpa using semicolon
    decide
  · exact ascii_of_isWs blank

theorem ascii_of_semicolon {byte : UInt8} (stops : decide (byte ≠ 0x3B) = false) : byte.toNat < 0x80 := by
  obtain rfl : byte = 0x3B := by simpa using stops
  decide

/-- A string that is closed ends behind a quotation mark. -/
theorem quotedString_behind (bytes : List UInt8) :
    (quotedString bytes).2 = [] ∨ ∃ front, bytes = front ++ 0x22 :: (quotedString bytes).2 := by
  fun_induction quotedString bytes with
  | case1 => exact Or.inl rfl
  | case2 => exact Or.inl rfl
  | case3 => exact Or.inl rfl
  | case4 next rest => exact Or.inr ⟨[], rfl⟩
  | case5 next rest buf behind same _ ih =>
      rw [same] at ih
      rcases ih with ended | ⟨front, cut⟩
      · exact Or.inl ended
      · exact Or.inr ⟨0x5C :: next :: front, by rw [cut]; rfl⟩
  | case6 byte next rest _ _ buf behind same ih =>
      rw [same] at ih
      rcases ih with ended | ⟨front, cut⟩
      · exact Or.inl ended
      · exact Or.inr ⟨byte :: front, by rw [cut]; rfl⟩

theorem quotedString_narrow (bytes : List UInt8) : ∀ char ∈ (quotedString bytes).1, char.toNat < 0x100 := by
  have narrow (byte : UInt8) : (Char.ofUInt8 byte).toNat < 0x100 :=
    (UInt8.toNat_toUInt32 byte).trans_lt byte.toNat_lt
  fun_induction quotedString bytes with
  | case1 | case2 | case4 => exact List.forall_mem_nil _
  | case3 byte => exact List.forall_mem_singleton.mpr (narrow byte)
  | case5 next rest buf behind same _ ih =>
      rw [same] at ih
      exact List.forall_mem_cons.mpr ⟨narrow next, ih⟩
  | case6 byte next rest _ _ buf behind same ih =>
      rw [same] at ih
      exact List.forall_mem_cons.mpr ⟨narrow byte, ih⟩

/-- Stripping leaves no blank at either end. -/
theorem trim_ends (text : List Char) :
    (∀ char ∈ (trim text).head?, isWhitespace char = false) ∧
      ∀ char ∈ (trim text).getLast?, isWhitespace char = false := by
  constructor
  · intro char first
    obtain ⟨rest, same⟩ := List.head?_eq_some_iff.mp first
    obtain ⟨stripped, whole⟩ := List.rdropWhile_prefix isWhitespace (text.dropWhile isWhitespace)
    change trim text ++ stripped = _ at whole
    rw [same] at whole
    have nonempty : text.dropWhile isWhitespace ≠ [] := by
      rw [← whole]
      exact List.cons_ne_nil _ _
    have fails := List.head_dropWhile_not isWhitespace nonempty
    simpa only [← whole, List.cons_append, List.head_cons] using fails
  · intro char last
    have nonempty : trim text ≠ [] := by
      intro empty
      rw [empty] at last
      cases last
    have fails : ¬ isWhitespace ((trim text).getLast nonempty) = true := List.rdropWhile_last_not _ _ nonempty
    rw [Option.mem_def, List.getLast?_eq_some_getLast nonempty] at last
    rw [Option.some.inj last] at fails
    exact Bool.eq_false_iff.mpr fails

/-- A value of any text is read, and the cursor is at a character again behind it. -/
theorem parameterValue_encoded (encoded : Encoded bytes) :
    ∃ value behind, parameterValue bytes = some (value, behind) ∧ Encoded behind ∧ AcceptedValue value := by
  unfold parameterValue
  split_ifs with opened
  · obtain ⟨rest, rfl⟩ := List.head?_eq_some_iff.mp opened
    refine ⟨_, _, rfl, ?_, Or.inl (quotedString_narrow _)⟩
    rw [List.tail_cons]
    rcases quotedString_behind rest with ended | ⟨front, cut⟩
    · exact ⟨[], ended.symm⟩
    · have inner := encoded.behind (by decide)
      rw [cut] at inner
      exact (inner.split (by decide)).2
  · obtain ⟨⟨token, same⟩, later⟩ := encoded.span fun _ => ascii_of_semicolon
    have plain : ';' ∉ token := by
      intro member
      have listed : (0x3B : UInt8) ∈ encode token := List.mem_flatMap.mpr ⟨';', member, by decide⟩
      rw [same] at listed
      simpa using List.mem_takeWhile_imp listed
    rw [← same, decode_encode]
    refine ⟨_, _, rfl, later, Or.inr ⟨fun member => plain ?_, trim_ends token⟩⟩
    exact (List.dropWhile_suffix _).subset ((List.rdropWhile_prefix _ _).subset member)

theorem accepted_name {name : List Char} (same : encode name = bytes.takeWhile inName) :
    ∀ char ∈ name, char ≠ '=' ∧ char ≠ ';' ∧ char ≠ ' ' ∧ char ≠ '\t' := by
  intro char member
  have inside : ∀ byte ∈ String.utf8EncodeChar char, inName byte = true := by
    intro byte part
    have listed : byte ∈ encode name := List.mem_flatMap.mpr ⟨char, member, part⟩
    rw [same] at listed
    exact List.mem_takeWhile_imp listed
  refine ⟨?_, ?_, ?_, ?_⟩ <;> rintro rfl
  · exact Bool.false_ne_true (inside 0x3D (by decide))
  · exact Bool.false_ne_true (inside 0x3B (by decide))
  · exact Bool.false_ne_true (inside 0x20 (by decide))
  · exact Bool.false_ne_true (inside 0x09 (by decide))

/-- The scanner reads any text from any of its bytes. -/
theorem scanParams_encoded (fuel : Nat) (cursor : Encoded (front ++ bytes)) :
    ∃ params, scanParams fuel bytes = some params ∧ ∀ param ∈ params, Accepted param := by
  induction fuel generalizing front bytes with
  | zero => exact ⟨[], rfl, List.forall_mem_nil _⟩
  | succ fuel ih =>
      cases bytes with
      | nil => exact ⟨[], rfl, List.forall_mem_nil _⟩
      | cons byte rest =>
          rw [scanParams]
          dsimp only
          split_ifs with skipped empty unvalued
          · have later : Encoded (front ++ [byte] ++ rest) := by rwa [List.append_assoc]
            exact ih later
          all_goals
            obtain rfl : byte = 0x3B := Decidable.not_not.mp skipped
            have start : Encoded (rest.dropWhile isWs) := (cursor.split (by decide)).2.skip fun _ => ascii_of_isWs
            obtain ⟨⟨name, same⟩, behindName⟩ := start.span fun _ => ascii_of_inName
            have equals := behindName.skip fun _ => ascii_of_isWs
          · exact ih (show Encoded ([] ++ _) from behindName)
          · rw [← same, decode_encode]
            exact ih (show Encoded ([] ++ _) from equals)
          · obtain ⟨behindEquals, opened⟩ := List.head?_eq_some_iff.mp (Decidable.not_not.mp unvalued)
            rw [opened] at equals ⊢
            rw [List.tail_cons]
            obtain ⟨value, behind, read, later, valued⟩ :=
              parameterValue_encoded ((equals.behind (by decide)).skip fun _ => ascii_of_isWs)
            obtain ⟨params, scanned, accepted⟩ := ih (show Encoded ([] ++ behind) from later)
            rw [← same, decode_encode, Option.bind_some, read, Option.bind_some, scanned]
            refine ⟨_, rfl, List.forall_mem_cons.mpr ⟨⟨?_, ?_, valued⟩, accepted⟩⟩
            · rintro rfl
              exact empty same.symm
            · exact accepted_name same

/-- The parser never stops at a slice that cuts a character, and what it takes for a parameter is one. -/
theorem parseParams_accepted (input : List Char) :
    ∃ params, parseParams input = some params ∧ ∀ param ∈ params, Accepted param := by
  rw [parseParams_eq_scan]
  exact scanParams_encoded _ (show Encoded ([] ++ _) from ⟨input, rfl⟩)

theorem parseContentDisposition_read (percent : PercentDecoder) (value : List Char) :
    ∃ raw, parseContentDisposition percent value = some raw := by
  obtain ⟨params, scanned, -⟩ := scanParams_encoded (encode value).length
    (show Encoded ([] ++ encode value) from ⟨value, rfl⟩)
  exact ⟨_, Option.map_eq_some_iff.mpr ⟨params, (parseParams_eq_scan value).trans scanned, rfl⟩⟩

/-- A name that can stand in a path comes out of every header and every URL, whatever percent-decoding makes of them. -/
theorem deriveFilename_safe (percent : PercentDecoder) (contentDisposition lastSegment : Option (List Char)) :
    ∃ name, deriveFilename percent contentDisposition lastSegment = some name ∧ SafeComponent name := by
  have cleans (raw : Option (List Char)) :
      ∃ name, sanitize ((raw.or (extractFromUrl percent lastSegment)).getD []) = some name ∧ SafeComponent name := by
    obtain ⟨name, sanitized, outcome⟩ := sanitize_outcome ((raw.or (extractFromUrl percent lastSegment)).getD [])
    exact ⟨name, sanitized, outcome.safe (cleaned_clean _)⟩
  cases contentDisposition with
  | none => exact cleans none
  | some value =>
      obtain ⟨raw, read⟩ := parseContentDisposition_read percent value
      obtain ⟨name, sanitized, safe⟩ := cleans raw
      refine ⟨name, ?_, safe⟩
      simp only [deriveFilename, read, Option.bind_some, sanitized]

end FastDownloader.Filename
