/-
This file models how a checksum is read from the hexadecimal text that its caller gives.
-/

import FastDownloader.Model.Checksum
import FastDownloader.Model.Filename

namespace FastDownloader

open Foundation

def hexVal (b : UInt8) : Except Error UInt8 :=
  if 0x30 ≤ b ∧ b ≤ 0x39 then .ok (b - 0x30)
  else if 0x61 ≤ b ∧ b ≤ 0x66 then .ok (b - 0x61 + 10)
  else if 0x41 ≤ b ∧ b ≤ 0x46 then .ok (b - 0x41 + 10)
  else .error (.invalidChecksum "non-hex character")

theorem pair_size {out rest : List UInt8} (size : out.length = rest.length / 2) (byte hi lo : UInt8) :
    (byte :: out).length = (hi :: lo :: rest).length / 2 := by
  simp only [List.length_cons, size]
  omega

theorem single_size (byte : UInt8) : ([] : List UInt8).length = [byte].length / 2 := by
  simp only [List.length_nil, List.length_cons, Nat.zero_add, Nat.reduceDiv]

/-- The loop makes a byte of two digits and stops at the first character that is none. -/
def hexPairs : (bytes : List UInt8) → Except Error {out : List UInt8 // out.length = bytes.length / 2}
  | [] => .ok ⟨[], rfl⟩
  | [byte] => .ok ⟨[], single_size byte⟩
  | hi :: lo :: rest =>
      (hexVal hi).bind fun upper => (hexVal lo).bind fun lower =>
        (hexPairs rest).map fun out => ⟨(upper <<< 4 ||| lower) :: out.1, pair_size out.2 _ hi lo⟩

theorem array_size {n : Nat} {out bytes : List UInt8} (half : out.length = bytes.length / 2)
    (size : bytes.length = 2 * n) : out.toArray.size = n := by
  rw [List.size_toArray, half, size]
  omega

/-- The length is that of the trimmed text in bytes. -/
def fromHex (n : Nat) (s : List Char) : Except Error (Vector UInt8 n) :=
  let bytes := encode (Filename.trim s)
  if size : bytes.length = 2 * n then
    (hexPairs bytes).map fun out => ⟨out.1.toArray, array_size out.2 size⟩
  else .error (.invalidChecksum s!"expected {2 * n} hex chars, got {bytes.length}")

namespace Checksum

def sha256Hex (s : List Char) : Except Error Checksum := (fromHex 32 s).map .sha256

def sha512Hex (s : List Char) : Except Error Checksum := (fromHex 64 s).map .sha512

def md5Hex (s : List Char) : Except Error Checksum := (fromHex 16 s).map .md5

end Checksum

end FastDownloader
