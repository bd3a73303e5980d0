/-
This file writes bytes in standard Base64 with padding and reads them back.
-/

import Mathlib.Data.List.Basic
import Mathlib.Tactic.Common

namespace FastDownloader.Foundation.Base64

def alphabet : List Char := "ABCDEFGHIJKLMNOPQRSTUVWXYZabcdefghijklmnopqrstuvwxyz0123456789+/".toList

def digit (sextet : Nat) : Char := alphabet.getD sextet '='

def value (char : Char) : Nat := alphabet.idxOf char

/-- Three bytes are four digits. The last group is padded when it is shorter. -/
def encode : List UInt8 → List Char
  | first :: second :: third :: rest =>
      digit (first.toNat / 4) :: digit (first.toNat % 4 * 16 + second.toNat / 16) ::
        digit (second.toNat % 16 * 4 + third.toNat / 64) :: digit (third.toNat % 64) :: encode rest
  | [first, second] =>
      [digit (first.toNat / 4), digit (first.toNat % 4 * 16 + second.toNat / 16), digit (second.toNat % 16 * 4), '=']
  | [first] => [digit (first.toNat / 4), digit (first.toNat % 4 * 16), '=', '=']
  | [] => []

/-- The digits are taken at their values, also those that no byte is written with. -/
def read : List Char → List UInt8
  | first :: second :: third :: fourth :: rest =>
      let high := UInt8.ofNat (value first * 4 + value second / 16)
      let middle := UInt8.ofNat (value second % 16 * 16 + value third / 4)
      let low := UInt8.ofNat (value third % 4 * 64 + value fourth)
      if third = '=' then [high] else if fourth = '=' then [high, middle] else high :: middle :: low :: read rest
  | _ => []

/-- Only the text that stands for the bytes in the standard form is accepted. -/
def decode (text : List Char) : Option (List UInt8) :=
  if encode (read text) = text then some (read text) else none

variable {bytes : List UInt8} {text : List Char}

theorem value_digit {sextet : Nat} (small : sextet < 64) : value (digit sextet) = sextet := by
  have all : ∀ sextet < 64, value (digit sextet) = sextet := by decide +kernel
  exact all sextet small

theorem digit_mem {sextet : Nat} (small : sextet < 64) : digit sextet ∈ alphabet := by
  have inside : sextet < alphabet.length := small
  rw [digit, List.getD_eq_getElem?_getD, List.getElem?_eq_getElem inside]
  exact List.getElem_mem inside

theorem digit_ne_pad {sextet : Nat} (small : sextet < 64) : digit sextet ≠ '=' := by
  have absent : '=' ∉ alphabet := by decide
  exact ne_of_mem_of_not_mem (digit_mem small) absent

theorem ofNat_eq {number : Nat} (byte : UInt8) (same : number = byte.toNat) : UInt8.ofNat number = byte := by
  rw [same, UInt8.ofNat_toNat]

/-- What was written is read back. -/
theorem read_encode (bytes : List UInt8) : read (encode bytes) = bytes := by
  induction bytes using encode.induct with
  | case1 first second third rest ih =>
      have high := first.toNat_lt
      have middle := second.toNat_lt
      have low := third.toNat_lt
      rw [encode, read, if_neg (digit_ne_pad (by omega)), if_neg (digit_ne_pad (by omega)), ih,
        value_digit (by omega), value_digit (by omega), value_digit (by omega), value_digit (by omega)]
      rw [ofNat_eq first (by omega), ofNat_eq second (by omega), ofNat_eq third (by omega)]
  | case2 first second =>
      have high := first.toNat_lt
      have middle := second.toNat_lt
      rw [encode, read, if_neg (digit_ne_pad (by omega)), if_pos rfl, value_digit (by omega), value_digit (by omega),
        value_digit (by omega)]
      rw [ofNat_eq first (by omega), ofNat_eq second (by omega)]
  | case3 first =>
      have high := first.toNat_lt
      rw [encode, read, if_pos rfl, value_digit (by omega), value_digit (by omega)]
      rw [ofNat_eq first (by omega)]
  | case4 => rfl

/-- A text is accepted exactly when it is how the bytes are written. -/
theorem decode_eq_some : decode text = some bytes ↔ text = encode bytes := by
  constructor
  · intro accepted
    rw [decode] at accepted
    split_ifs at accepted with standard
    rw [← Option.some.inj accepted, standard]
  · rintro rfl
    rw [decode, read_encode, if_pos rfl]

example : decode "Zm9vYg==".toList = some [0x66, 0x6F, 0x6F, 0x62] := by decide

theorem forall_mem_encode (bytes : List UInt8) : ∀ char ∈ encode bytes, char ∈ '=' :: alphabet := by
  have written {sextet : Nat} (small : sextet < 64) : digit sextet ∈ '=' :: alphabet :=
    List.mem_cons_of_mem _ (digit_mem small)
  have pad : '=' ∈ '=' :: alphabet := List.mem_cons_self
  induction bytes using encode.induct with
  | case1 first second third rest ih =>
      have high := first.toNat_lt
      have middle := second.toNat_lt
      have low := third.toNat_lt
      rw [encode]
      simp only [List.forall_mem_cons]
      exact ⟨written (by omega), written (by omega), written (by omega), written (by omega), ih⟩
  | case2 first second =>
      have high := first.toNat_lt
      have middle := second.toNat_lt
      rw [encode]
      simp only [List.forall_mem_cons]
      exact ⟨written (by omega), written (by omega), written (by omega), pad, List.forall_mem_nil _⟩
  | case3 first =>
      have high := first.toNat_lt
      rw [encode]
      simp only [List.forall_mem_cons]
      exact ⟨written (by omega), written (by omega), pad, pad, List.forall_mem_nil _⟩
  | case4 => exact List.forall_mem_nil _

end FastDownloader.Foundation.Base64
