/-
This file gives the rules of the scanner of `parse_params`.
-/

import FastDownloader.Model.Filename

namespace FastDownloader.Filename

open Foundation

variable {bytes front rest behind : List UInt8} {byte : UInt8} {value : List Char}

/-- A scanning loop stops at the first byte that fails its test. -/
theorem span_append {test : UInt8 → Bool} (inside : ∀ byte ∈ front, test byte = true) (rest : List UInt8)
    (stop : ∀ byte ∈ rest.head?, test byte = false) :
    (front ++ rest).takeWhile test = front ∧ (front ++ rest).dropWhile test = rest := by
  rw [List.takeWhile_append_of_pos inside, List.dropWhile_append_of_pos inside]
  cases rest with
  | nil => exact ⟨List.append_nil _, rfl⟩
  | cons byte rest =>
      have fails := stop byte rfl
      rw [List.takeWhile_cons, List.dropWhile_cons, fails, if_neg Bool.false_ne_true, if_neg Bool.false_ne_true]
      exact ⟨List.append_nil _, rfl⟩

theorem length_dropWhile_le (test : UInt8 → Bool) (bytes : List UInt8) :
    (bytes.dropWhile test).length ≤ bytes.length :=
  (List.dropWhile_suffix test).length_le

theorem quotedString_close (rest : List UInt8) : quotedString (0x22 :: rest) = ([], rest) := by
  cases rest <;> rfl

theorem quotedString_escape (next : UInt8) (rest : List UInt8) :
    quotedString (0x5C :: next :: rest) = (Char.ofUInt8 next :: (quotedString rest).1, (quotedString rest).2) := by
  rw [quotedString, if_neg (by decide), if_pos rfl]

theorem quotedString_plain (open_ : byte ≠ 0x22) (plain : byte ≠ 0x5C) (rest : List UInt8) :
    quotedString (byte :: rest) = (Char.ofUInt8 byte :: (quotedString rest).1, (quotedString rest).2) := by
  cases rest with
  | nil =>
      rw [quotedString.eq_2, if_neg open_]
      rfl
  | cons next rest => rw [quotedString, if_neg open_, if_neg plain]

/-- This is a byte between quotes, with a backslash before it or without one. -/
def quotedByte (item : Bool × UInt8) : List UInt8 := if item.1 then [0x5C, item.2] else [item.2]

/-- The loop reads quoted bytes back, whichever of them carry a backslash. -/
theorem quotedString_items {items : List (Bool × UInt8)}
    (needed : ∀ item ∈ items, item.2 = 0x22 ∨ item.2 = 0x5C → item.1 = true) (rest : List UInt8) :
    quotedString (items.flatMap quotedByte ++ 0x22 :: rest) = (items.map fun item => Char.ofUInt8 item.2, rest) := by
  induction items with
  | nil => exact quotedString_close rest
  | cons item items ih =>
      obtain ⟨escaped, byte⟩ := item
      have later := ih fun other member => needed other (List.mem_cons_of_mem _ member)
      rw [List.flatMap_cons, List.append_assoc, List.map_cons]
      cases escaped with
      | true =>
          change quotedString (0x5C :: byte :: (items.flatMap quotedByte ++ 0x22 :: rest)) = _
          rw [quotedString_escape, later]
      | false =>
          have plain : ¬ (byte = 0x22 ∨ byte = 0x5C) := fun special =>
            Bool.false_ne_true (needed (false, byte) List.mem_cons_self special)
          rw [not_or] at plain
          change quotedString (byte :: (items.flatMap quotedByte ++ 0x22 :: rest)) = _
          rw [quotedString_plain plain.1 plain.2, later]

theorem quotedString_length (bytes : List UInt8) : (quotedString bytes).2.length ≤ bytes.length := by
  fun_induction quotedString bytes with
  | case1 => exact Nat.le_refl _
  | case2 => exact Nat.zero_le _
  | case3 => exact Nat.zero_le _
  | case4 next rest => exact Nat.le_succ _
  | case5 next rest buf behind same _ ih =>
      rw [same] at ih
      exact Nat.le_add_right_of_le (Nat.le_add_right_of_le ih)
  | case6 byte next rest _ _ buf behind same ih =>
      rw [same] at ih
      exact Nat.le_add_right_of_le ih

theorem parameterValue_open (rest : List UInt8) : parameterValue (0x22 :: rest) = some (quotedString rest) := rfl

theorem parameterValue_length (read : parameterValue bytes = some (value, behind)) : behind.length ≤ bytes.length := by
  unfold parameterValue at read
  split_ifs at read
  · have shorter := quotedString_length bytes.tail
    rw [Option.some.inj read, List.length_tail] at shorter
    exact shorter.trans (Nat.sub_le _ _)
  · obtain ⟨token, _, same⟩ := Option.map_eq_some_iff.mp read
    obtain ⟨-, rfl⟩ := Prod.mk.inj same
    exact length_dropWhile_le _ _

/-- Fuel for each byte is enough, and more of it changes nothing. -/
theorem scanParams_fuel {fuel : Nat} (enough : bytes.length ≤ fuel) (more : Nat) (also : bytes.length ≤ more) :
    scanParams fuel bytes = scanParams more bytes := by
  induction fuel generalizing bytes more with
  | zero =>
      obtain rfl := List.length_eq_zero_iff.mp (Nat.le_zero.mp enough)
      cases more <;> rfl
  | succ fuel ih =>
      cases bytes with
      | nil => cases more <;> rfl
      | cons byte rest =>
          rw [List.length_cons] at enough also
          obtain ⟨more, rfl⟩ : ∃ less, more = less + 1 := Nat.exists_eq_succ_of_ne_zero (by omega)
          have start := length_dropWhile_le isWs rest
          have name := length_dropWhile_le inName (rest.dropWhile isWs)
          have equals := length_dropWhile_le isWs ((rest.dropWhile isWs).dropWhile inName)
          rw [scanParams, scanParams]
          dsimp only
          split_ifs
          · exact ih (by omega) more (by omega)
          · exact ih (by omega) more (by omega)
          · apply Option.bind_congr
            intro text _
            exact ih (by omega) more (by omega)
          · apply Option.bind_congr
            intro text _
            apply Option.bind_congr
            rintro ⟨value, behind⟩ read
            have later := parameterValue_length read
            have tail := length_dropWhile_le isWs (((rest.dropWhile isWs).dropWhile inName).dropWhile isWs).tail
            rw [List.length_tail] at tail
            dsimp only
            rw [ih (by omega : behind.length ≤ fuel) more (by omega)]

/-- The scanner with enough fuel. -/
def scan (bytes : List UInt8) : Option (List Param) := scanParams bytes.length bytes

theorem scan_skip (skipped : byte ≠ 0x3B) (rest : List UInt8) : scan (byte :: rest) = scan rest := by
  rw [scan, List.length_cons, scanParams, if_pos skipped]
  rfl

theorem scan_skip_all (skipped : ∀ byte ∈ front, byte ≠ 0x3B) (rest : List UInt8) : scan (front ++ rest) = scan rest := by
  induction front with
  | nil => rfl
  | cons byte front ih =>
      rw [List.cons_append, scan_skip (skipped byte List.mem_cons_self)]
      exact ih fun other member => skipped other (List.mem_cons_of_mem byte member)

/-- A loop that stops at a semicolon skips nothing else that matters. -/
theorem scan_dropWhile {test : UInt8 → Bool} (skipped : ∀ byte, test byte = true → byte ≠ 0x3B) (bytes : List UInt8) :
    scan (bytes.dropWhile test) = scan bytes := by
  conv_rhs => rw [← List.takeWhile_append_dropWhile (p := test) (l := bytes)]
  rw [scan_skip_all]
  intro byte member
  exact skipped byte (List.mem_takeWhile_imp member)

/-- The leading blanks and the disposition type are skipped in vain. -/
theorem parseParams_eq_scan (input : List Char) : parseParams input = scan (encode input) := by
  have type : scan (((encode input).dropWhile isWs).dropWhile (· ≠ 0x3B)) = scan ((encode input).dropWhile isWs) := by
    apply scan_dropWhile
    simp
  have blanks : scan ((encode input).dropWhile isWs) = scan (encode input) := by
    apply scan_dropWhile
    rintro _ blank rfl
    exact absurd blank (by decide)
  exact type.trans blanks

/-- A parameter is read between its semicolon and what follows its value. -/
theorem scan_param {blanks name beforeEq afterEq : List UInt8} {text : List Char}
    (opened : ∀ byte ∈ blanks, isWs byte = true) (named : ∀ byte ∈ name, inName byte = true) (nonempty : name ≠ [])
    (decoded : decode name = some text) (before : ∀ byte ∈ beforeEq, isWs byte = true)
    (after : ∀ byte ∈ afterEq, isWs byte = true) (begins : ∀ byte ∈ rest.head?, isWs byte = false)
    (read : parameterValue rest = some (value, behind)) :
    scan (0x3B :: (blanks ++ (name ++ (beforeEq ++ 0x3D :: (afterEq ++ rest))))) =
      (scan behind).map fun params => ⟨text, value⟩ :: params := by
  have start := span_append opened (name ++ (beforeEq ++ 0x3D :: (afterEq ++ rest))) (by
    intro byte first
    obtain ⟨head, tail, rfl⟩ := List.exists_cons_of_ne_nil nonempty
    obtain rfl := Option.some.inj first
    have inside := named head List.mem_cons_self
    simp only [inName, Bool.and_eq_true, Bool.not_eq_true'] at inside
    exact inside.2)
  have ends := span_append named (beforeEq ++ 0x3D :: (afterEq ++ rest)) (by
    intro byte first
    cases beforeEq with
    | nil =>
        obtain rfl := Option.some.inj first
        rfl
    | cons head tail =>
        obtain rfl := Option.some.inj first
        have blank := before head List.mem_cons_self
        simp [inName, blank])
  have equals := span_append before (0x3D :: (afterEq ++ rest)) (by
    intro byte first
    obtain rfl := Option.some.inj first
    rfl)
  have valued := span_append after rest begins
  have later := parameterValue_length read
  rw [scan, List.length_cons, scanParams, if_neg (by decide)]
  dsimp only
  rw [start.2, ends.1, ends.2, if_neg nonempty, decoded, Option.bind_some, equals.2, List.head?_cons,
    if_neg (by simp), List.tail_cons, valued.2, read, Option.bind_some]
  dsimp only
  rw [scan, scanParams_fuel _ behind.length (Nat.le_refl _)]
  simp only [List.length_append, List.length_cons]
  omega

end FastDownloader.Filename
