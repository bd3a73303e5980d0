/-
This file shows that a hexadecimal text is read as exactly the checksum that it writes, and how other texts are refused.
-/

import FastDownloader.Model.Hex

namespace FastDownloader

open Foundation

/-- These are the digits of the bytes, the high half of each byte first. -/
def hexText (bytes : List UInt8) : List Char :=
  bytes.flatMap fun byte => [hexDigit (byte.toNat / 16), hexDigit (byte.toNat % 16)]

/-- The digit of a byte of the text does not depend on the case of its letter. -/
def hexChar (byte : UInt8) : Char := (Char.ofUInt8 byte).toLower

theorem hexDigit_injective : ∀ first < 16, ∀ second < 16, hexDigit first = hexDigit second → first = second := by
  decide +kernel

/-- A byte is the digit of its value, or it is no digit at all. -/
theorem hexVal_cases (byte : UInt8) :
    (∃ value < 16, hexVal byte = .ok (UInt8.ofNat value) ∧ hexChar byte = hexDigit value) ∨
      (hexVal byte = .error (.invalidChecksum "non-hex character") ∧ ∀ value < 16, hexChar byte ≠ hexDigit value) := by
  have all : ∀ number < 256,
      (∃ value < 16, hexVal (UInt8.ofNat number) = .ok (UInt8.ofNat value) ∧
        hexChar (UInt8.ofNat number) = hexDigit value) ∨
      (hexVal (UInt8.ofNat number) = .error (.invalidChecksum "non-hex character") ∧
        ∀ value < 16, hexChar (UInt8.ofNat number) ≠ hexDigit value) := by
    decide +kernel
  have one := all byte.toNat byte.toNat_lt
  rwa [UInt8.ofNat_toNat] at one

/-- The digits of a byte are those of its halves. -/
theorem join_halves : ∀ upper < 16, ∀ lower < 16,
    (UInt8.ofNat upper <<< 4 ||| UInt8.ofNat lower).toNat = 16 * upper + lower := by
  decide +kernel

@[simp] theorem hexText_cons (byte : UInt8) (bytes : List UInt8) :
    hexText (byte :: bytes) = hexDigit (byte.toNat / 16) :: hexDigit (byte.toNat % 16) :: hexText bytes := rfl

theorem mem_hexText {bytes : List UInt8} {char : Char} (member : char ∈ hexText bytes) :
    ∃ value < 16, char = hexDigit value := by
  obtain ⟨byte, _, digit⟩ := List.mem_flatMap.mp member
  have small := byte.toNat_lt
  rcases List.mem_cons.mp digit with rfl | last
  · exact ⟨_, by omega, rfl⟩
  · rw [List.mem_singleton] at last
    exact ⟨_, Nat.mod_lt _ (by decide), last⟩

theorem hexText_injective {first second : List UInt8} (same : hexText first = hexText second) : first = second := by
  induction first generalizing second with
  | nil =>
      cases second with
      | nil => rfl
      | cons => cases same
  | cons byte first ih =>
      cases second with
      | nil => cases same
      | cons other second =>
          simp only [hexText_cons, List.cons.injEq] at same
          obtain ⟨high, low, rest⟩ := same
          have small := byte.toNat_lt
          have little := other.toNat_lt
          have upper := hexDigit_injective _ (by omega) _ (by omega) high
          have lower := hexDigit_injective _ (Nat.mod_lt _ (by decide)) _ (Nat.mod_lt _ (by decide)) low
          rw [UInt8.toNat_inj.mp (show byte.toNat = other.toNat by omega), ih rest]

/-- An even number of bytes is read as the bytes that they write, or one of them is no digit. -/
theorem hexPairs_cases (bytes : List UInt8) (even : bytes.length % 2 = 0) :
    (∃ out, hexPairs bytes = .ok out ∧ bytes.map hexChar = hexText out.1) ∨
      (hexPairs bytes = .error (.invalidChecksum "non-hex character") ∧
        ∃ byte ∈ bytes, ∀ value < 16, hexChar byte ≠ hexDigit value) := by
  induction bytes using hexPairs.induct with
  | case1 => exact Or.inl ⟨_, rfl, rfl⟩
  | case2 byte => simp at even
  | case3 hi lo rest ih =>
      rcases hexVal_cases hi with ⟨upper, high, readHi, sameHi⟩ | ⟨refused, foreign⟩
      swap
      · exact Or.inr ⟨by rw [hexPairs, refused]; rfl, hi, List.mem_cons_self, foreign⟩
      rcases hexVal_cases lo with ⟨lower, low, readLo, sameLo⟩ | ⟨refused, foreign⟩
      swap
      · exact Or.inr ⟨by rw [hexPairs, readHi, refused]; rfl, lo, List.mem_cons_of_mem _ List.mem_cons_self, foreign⟩
      rcases ih (by simp only [List.length_cons] at even; omega) with ⟨out, read, same⟩ | ⟨refused, byte, member, foreign⟩
      swap
      · refine Or.inr ⟨by rw [hexPairs, readHi, readLo, refused]; rfl, byte, ?_, foreign⟩
        exact List.mem_cons_of_mem _ (List.mem_cons_of_mem _ member)
      refine Or.inl ⟨_, by rw [hexPairs, readHi, readLo, read]; rfl, ?_⟩
      have joined := join_halves upper high lower low
      have first : (16 * upper + lower) / 16 = upper := by omega
      have second : (16 * upper + lower) % 16 = lower := by omega
      simp only [List.map_cons, hexText_cons, joined, first, second, sameHi, sameLo, same]

/-- Only an ASCII character is a digit in one of its cases. -/
theorem ascii_of_toLower {char : Char} {value : Nat} (small : value < 16) (digit : char.toLower = hexDigit value) :
    char.toNat < 0x80 := by
  have digits : ∀ value < 16, (hexDigit value).toNat < 0x80 := by decide +kernel
  by_cases upper : char.val ≥ 'A'.val ∧ char.val ≤ 'Z'.val
  · exact Nat.lt_of_le_of_lt (UInt32.le_iff_toNat_le.mp upper.2) (by decide)
  · have same : char.toLower = char := dif_neg upper
    rw [← same, digit]
    exact digits value small

theorem ofUInt8_toNat (byte : UInt8) : (Char.ofUInt8 byte).toNat = byte.toNat := UInt8.toNat_toUInt32 byte

/-- The bytes of an ASCII text have the same digits as its characters. -/
theorem map_hexChar {text : List Char} (ascii : ∀ char ∈ text, char.toNat < 0x80) :
    (encode text).map hexChar = text.map Char.toLower := by
  rw [encode_ascii ascii, List.map_map]
  refine List.map_congr_left fun char member => ?_
  have narrow : char.toNat < 0x100 := Nat.lt_trans (ascii char member) (by decide)
  exact congrArg Char.toLower (ofUInt8_toUInt8 narrow)

/-- A text of digits in any case is ASCII. -/
theorem ascii_of_hexText {text : List Char} {bytes : List UInt8} (same : text.map Char.toLower = hexText bytes) :
    ∀ char ∈ text, char.toNat < 0x80 := by
  intro char member
  obtain ⟨value, small, digit⟩ := mem_hexText (same ▸ List.mem_map_of_mem member)
  exact ascii_of_toLower small digit

/-- So is a text whose bytes are digits. -/
theorem ascii_of_encode {text : List Char} {bytes : List UInt8} (same : (encode text).map hexChar = hexText bytes) :
    ∀ char ∈ text, char.toNat < 0x80 := by
  intro char member
  by_contra wide
  obtain ⟨byte, part⟩ : ∃ byte, byte ∈ String.utf8EncodeChar char :=
    List.exists_mem_of_ne_nil _ (List.ne_nil_of_length_pos (by
      rw [String.length_utf8EncodeChar]
      exact char.utf8Size_pos))
  have high := high_of_mem_utf8EncodeChar (Nat.le_of_not_lt wide) part
  have inside : byte ∈ encode text := List.mem_flatMap.mpr ⟨char, member, part⟩
  obtain ⟨value, small, digit⟩ := mem_hexText (same ▸ List.mem_map_of_mem inside)
  have low := ascii_of_toLower small digit
  rw [ofUInt8_toNat] at low
  omega

theorem mem_digits_iff (char : Char) : char ∈ "0123456789abcdef".toList ↔ ∃ value < 16, char = hexDigit value := by
  have listed : "0123456789abcdef".toList = (List.range 16).map hexDigit := by decide +kernel
  simp only [listed, List.mem_map, List.mem_range, eq_comm]

/-- The result of reading a text of a checksum with this many bytes. -/
inductive HexRead (n : Nat) (text : List Char) : Except Error (Vector UInt8 n) → Prop
  | read (bytes : Vector UInt8 n) (same : text.map Char.toLower = hexText bytes.toList) : HexRead n text (.ok bytes)
  | sized (wrong : byteLen text ≠ 2 * n) :
      HexRead n text (.error (.invalidChecksum s!"expected {2 * n} hex chars, got {byteLen text}"))
  | foreign (right : byteLen text = 2 * n) (char : Char) (member : char ∈ text)
      (none : char.toLower ∉ "0123456789abcdef".toList) :
      HexRead n text (.error (.invalidChecksum "non-hex character"))

/-- The reading is the one that the text allows. -/
theorem fromHex_read (n : Nat) (s : List Char) : HexRead n (Filename.trim s) (fromHex n s) := by
  unfold fromHex
  dsimp only
  split_ifs with size
  · rcases hexPairs_cases (encode (Filename.trim s)) (by omega) with ⟨out, read, same⟩ | ⟨refused, byte, member, none⟩
    · rw [read]
      refine .read _ ?_
      rw [← map_hexChar (ascii_of_encode same)]
      exact same
    · rw [refused]
      by_cases ascii : ∀ char ∈ Filename.trim s, char.toNat < 0x80
      · rw [encode_ascii ascii] at member
        obtain ⟨char, inside, rfl⟩ := List.mem_map.mp member
        have narrow : char.toNat < 0x100 := Nat.lt_trans (ascii char inside) (by decide)
        refine .foreign (length_encode (Filename.trim s) ▸ size) char inside fun digit => ?_
        obtain ⟨value, small, same⟩ := (mem_digits_iff _).mp digit
        have differs := none value small
        rw [hexChar, ofUInt8_toUInt8 narrow] at differs
        exact differs same
      · simp only [not_forall] at ascii
        obtain ⟨char, inside, wide⟩ := ascii
        refine .foreign (length_encode (Filename.trim s) ▸ size) char inside fun digit => ?_
        obtain ⟨value, small, same⟩ := (mem_digits_iff _).mp digit
        exact wide (ascii_of_toLower small same)
  · rw [length_encode] at size ⊢
    exact .sized size

theorem hexText_length (bytes : List UInt8) : (hexText bytes).length = 2 * bytes.length := by
  induction bytes with
  | nil => rfl
  | cons byte bytes ih =>
      rw [hexText_cons, List.length_cons, List.length_cons, List.length_cons, ih]
      omega

/-- A text of digits has one byte for each digit. -/
theorem byteLen_of_hexText {text : List Char} {bytes : List UInt8} (same : text.map Char.toLower = hexText bytes) :
    byteLen text = 2 * bytes.length := by
  have length := congrArg List.length same
  rw [List.length_map, hexText_length] at length
  rw [← length_encode, encode_ascii (ascii_of_hexText same), List.length_map, length]

theorem digits_of_hexText {text : List Char} {bytes : List UInt8} (same : text.map Char.toLower = hexText bytes) :
    ∀ char ∈ text, char.toLower ∈ "0123456789abcdef".toList := by
  intro char member
  exact (mem_digits_iff _).mpr (mem_hexText (same ▸ List.mem_map_of_mem member))

/-- There is only one result that the text allows. -/
theorem HexRead.unique {n : Nat} {text : List Char} {first second : Except Error (Vector UInt8 n)}
    (one : HexRead n text first) (other : HexRead n text second) : first = second := by
  have sized : ∀ bytes : Vector UInt8 n, text.map Char.toLower = hexText bytes.toList → byteLen text = 2 * n := by
    intro bytes same
    rw [byteLen_of_hexText same, Vector.length_toList]
  cases one with
  | read bytes same =>
      cases other with
      | read others again => rw [Vector.toList_inj.mp (hexText_injective (same.symm.trans again))]
      | sized wrong => exact absurd (sized bytes same) wrong
      | foreign right char member none => exact absurd (digits_of_hexText same char member) none
  | sized wrong =>
      cases other with
      | read others again => exact absurd (sized others again) wrong
      | sized => rfl
      | foreign right => exact absurd right wrong
  | foreign right char member none =>
      cases other with
      | read others again => exact absurd (digits_of_hexText again char member) none
      | sized wrong => exact absurd right wrong
      | foreign => rfl

theorem fromHex_iff (n : Nat) (s : List Char) (result : Except Error (Vector UInt8 n)) :
    fromHex n s = result ↔ HexRead n (Filename.trim s) result :=
  ⟨fun same => same ▸ fromHex_read n s, fun read => (fromHex_read n s).unique read⟩

theorem fromHex_map_ok {n : Nat} (make : Vector UInt8 n → Checksum) (s : List Char) (checksum : Checksum) :
    (fromHex n s).map make = .ok checksum ↔
      ∃ bytes, make bytes = checksum ∧ (Filename.trim s).map Char.toLower = hexText bytes.toList := by
  constructor
  · intro made
    cases read : fromHex n s with
    | error error =>
        rw [read] at made
        cases made
    | ok bytes =>
        rw [read] at made
        cases (fromHex_iff n s _).mp read with
        | read _ same => exact ⟨bytes, Except.ok.inj made, same⟩
  · rintro ⟨bytes, rfl, same⟩
    rw [(fromHex_iff n s _).mpr (.read bytes same)]
    rfl

theorem fromHex_map_error {n : Nat} (make : Vector UInt8 n → Checksum) (s : List Char) (error : Error) :
    (fromHex n s).map make = .error error ↔
      (byteLen (Filename.trim s) ≠ 2 * n ∧
        error = .invalidChecksum s!"expected {2 * n} hex chars, got {byteLen (Filename.trim s)}") ∨
      (byteLen (Filename.trim s) = 2 * n ∧
        (∃ char ∈ Filename.trim s, char.toLower ∉ "0123456789abcdef".toList) ∧
        error = .invalidChecksum "non-hex character") := by
  constructor
  · intro failed
    cases read : fromHex n s with
    | ok bytes =>
        rw [read] at failed
        cases failed
    | error other =>
        rw [read] at failed
        obtain rfl := Except.error.inj failed
        cases (fromHex_iff n s _).mp read with
        | sized wrong => exact Or.inl ⟨wrong, rfl⟩
        | foreign right char member none => exact Or.inr ⟨right, ⟨char, member, none⟩, rfl⟩
  · rintro (⟨wrong, rfl⟩ | ⟨right, ⟨char, member, none⟩, rfl⟩)
    · rw [(fromHex_iff n s _).mpr (.sized wrong)]
      rfl
    · rw [(fromHex_iff n s _).mpr (.foreign right char member none)]
      rfl

namespace Checksum

/-- The constructor that reads a checksum of the same algorithm. -/
def readHex : Checksum → List Char → Except Error Checksum
  | .md5 _ => md5Hex
  | .sha256 _ => sha256Hex
  | .sha512 _ => sha512Hex

/-- A text is read as the checksum whose digits it has in any case, blanks around it aside. Every other text is refused
for its length or for a character that is no digit. -/
theorem hex_exact (like : Checksum) (s : List Char) :
    (∀ checksum, like.readHex s = .ok checksum ↔
      checksum.algorithm = like.algorithm ∧ (Filename.trim s).map Char.toLower = checksum.toHex.toList) ∧
    (∀ error, like.readHex s = .error error ↔
      (byteLen (Filename.trim s) ≠ 2 * like.bytes.length ∧ error =
        .invalidChecksum s!"expected {2 * like.bytes.length} hex chars, got {byteLen (Filename.trim s)}") ∨
      (byteLen (Filename.trim s) = 2 * like.bytes.length ∧
        (∃ char ∈ Filename.trim s, char.toLower ∉ "0123456789abcdef".toList) ∧
        error = .invalidChecksum "non-hex character")) := by
  have text : ∀ checksum : Checksum, checksum.toHex.toList = hexText checksum.bytes :=
    fun checksum => String.toList_ofList
  have names : "md5" ≠ "sha-256" ∧ "md5" ≠ "sha-512" ∧ "sha-256" ≠ "sha-512" := by decide
  cases like with
  | md5 =>
      refine ⟨fun checksum => ?_, fun error => ?_⟩
      · refine (fromHex_map_ok .md5 s checksum).trans ?_
        rw [text]
        cases checksum <;> simp [algorithm, bytes, names.1.symm, names.2.1.symm]
      · rw [show (Checksum.md5 _).bytes.length = 16 from Vector.length_toList]
        exact fromHex_map_error .md5 s error
  | sha256 =>
      refine ⟨fun checksum => ?_, fun error => ?_⟩
      · refine (fromHex_map_ok .sha256 s checksum).trans ?_
        rw [text]
        cases checksum <;> simp [algorithm, bytes, names]
      · rw [show (Checksum.sha256 _).bytes.length = 32 from Vector.length_toList]
        exact fromHex_map_error .sha256 s error
  | sha512 =>
      refine ⟨fun checksum => ?_, fun error => ?_⟩
      · refine (fromHex_map_ok .sha512 s checksum).trans ?_
        rw [text]
        cases checksum <;> simp [algorithm, bytes, names]
      · rw [show (Checksum.sha512 _).bytes.length = 64 from Vector.length_toList]
        exact fromHex_map_error .sha512 s error

end Checksum

end FastDownloader
