/-
This file cuts bytes in UTF-8 at bytes of ASCII, which are characters of their own.
-/

import FastDownloader.Foundation.Decoding

namespace FastDownloader.Foundation

/-- These bytes are the UTF-8 form of some text. -/
def Encoded (bytes : List UInt8) : Prop := ∃ text, encode text = bytes

variable {bytes front rest : List UInt8} {byte : UInt8} {test : UInt8 → Bool}

/-- A text falls apart at a byte of ASCII. -/
theorem Encoded.split (encoded : Encoded (front ++ byte :: rest)) (ascii : byte.toNat < 0x80) :
    Encoded front ∧ Encoded rest := by
  obtain ⟨text, same⟩ := encoded
  induction text generalizing front with
  | nil => simp at same
  | cons char text ih =>
      rw [encode_cons] at same
      obtain ⟨behind, apart, later⟩ | ⟨behind, inside, later⟩ := List.append_eq_append_iff.mp same
      · obtain ⟨⟨before, first⟩, after⟩ := ih later
        refine ⟨⟨char :: before, ?_⟩, after⟩
        rw [encode_cons, first, apart]
      · cases behind with
        | nil =>
            rw [List.append_nil] at inside
            have next : encode text = [] ++ byte :: rest := later.symm
            refine ⟨⟨[char], ?_⟩, (ih next).2⟩
            rw [encode_cons, encode_nil, List.append_nil, inside]
        | cons other behind =>
            obtain ⟨rfl, -⟩ := List.cons.inj later
            have member : byte ∈ String.utf8EncodeChar char := by
              rw [inside]
              exact List.mem_append_right front List.mem_cons_self
            have narrow : char.toNat < 0x80 := by
              by_contra wide
              exact Nat.not_lt.mpr (high_of_mem_utf8EncodeChar (Nat.le_of_not_lt wide) member) ascii
            rw [utf8EncodeChar_ascii narrow, List.singleton_eq_append_iff] at inside
            obtain ⟨rfl, single⟩ | ⟨-, single⟩ := inside
            · obtain ⟨-, rfl⟩ := List.cons.inj single
              exact ⟨⟨[], rfl⟩, ⟨text, (List.cons.inj later).2.symm⟩⟩
            · cases single

theorem Encoded.behind (encoded : Encoded (byte :: rest)) (ascii : byte.toNat < 0x80) : Encoded rest := by
  have whole : Encoded ([] ++ byte :: rest) := encoded
  exact (whole.split ascii).2

theorem Encoded.cons (encoded : Encoded rest) (ascii : byte.toNat < 0x80) : Encoded (byte :: rest) := by
  obtain ⟨text, same⟩ := encoded
  have narrow : (Char.ofUInt8 byte).toNat = byte.toNat := UInt8.toNat_toUInt32 byte
  refine ⟨Char.ofUInt8 byte :: text, ?_⟩
  rw [encode_cons, utf8EncodeChar_ascii (narrow ▸ ascii), toUInt8_ofUInt8, same]
  rfl

/-- A loop that stops only at ASCII leaves a text on either side. -/
theorem Encoded.span (encoded : Encoded bytes) (stops : ∀ byte, test byte = false → byte.toNat < 0x80) :
    Encoded (bytes.takeWhile test) ∧ Encoded (bytes.dropWhile test) := by
  have parts := List.takeWhile_append_dropWhile (p := test) (l := bytes)
  cases behind : bytes.dropWhile test with
  | nil =>
      rw [behind, List.append_nil] at parts
      exact ⟨parts.symm ▸ encoded, [], rfl⟩
  | cons byte rest =>
      have nonempty : bytes.dropWhile test ≠ [] := by
        rw [behind]
        exact List.cons_ne_nil byte rest
      have fails := List.head_dropWhile_not test nonempty
      simp only [behind, List.head_cons] at fails
      rw [behind] at parts
      rw [← parts] at encoded
      obtain ⟨before, after⟩ := encoded.split (stops byte fails)
      exact ⟨before, after.cons (stops byte fails)⟩

/-- A loop that passes only over ASCII leaves a text behind it. -/
theorem Encoded.skip (encoded : Encoded bytes) (passes : ∀ byte, test byte = true → byte.toNat < 0x80) :
    Encoded (bytes.dropWhile test) := by
  induction bytes with
  | nil => exact encoded
  | cons byte rest ih =>
      rw [List.dropWhile_cons]
      split_ifs with passed
      · exact ih (encoded.behind (passes byte passed))
      · exact encoded

end FastDownloader.Foundation
