/-
This file measures texts by the bytes that their characters take in UTF-8.
-/

import Mathlib.Algebra.Order.Ring.Nat
import Mathlib.Data.List.Basic
import Mathlib.Tactic.Common

namespace FastDownloader.Foundation

/-- A text is a list of characters. This is its length in bytes. -/
def byteLen (text : List Char) : Nat := (text.map Char.utf8Size).sum

/-- A position is a boundary when a prefix of the text ends there. -/
def isCharBoundary : List Char → Nat → Bool
  | _, 0 => true
  | [], _ + 1 => false
  | char :: rest, index + 1 => char.utf8Size ≤ index + 1 && isCharBoundary rest (index + 1 - char.utf8Size)

/-- The two parts of a text are absent where the position is no boundary. -/
def splitAtByte : List Char → Nat → Option (List Char × List Char)
  | text, 0 => some ([], text)
  | [], _ + 1 => none
  | char :: rest, index + 1 =>
      if char.utf8Size ≤ index + 1 then
        (splitAtByte rest (index + 1 - char.utf8Size)).map fun parts => (char :: parts.1, parts.2)
      else none

/-- A text that is long enough must be cut at a boundary. -/
def truncate (text : List Char) (length : Nat) : Option (List Char) :=
  if byteLen text < length then some text else (splitAtByte text length).map Prod.fst

/-- This is the longest prefix of whole characters within the budget. -/
def fit : Nat → List Char → List Char
  | _, [] => []
  | budget, char :: rest => if char.utf8Size ≤ budget then char :: fit (budget - char.utf8Size) rest else []

/-- A property of the characters of a text is decided on the text, not on all characters. -/
instance decidableForallMem (text : List Char) (holds : Char → Prop) [DecidablePred holds] :
    Decidable (∀ char ∈ text, holds char) := List.decidableBAll holds text

variable {text front rest : List Char} {char : Char} {budget index : Nat}

@[simp] theorem byteLen_nil : byteLen [] = 0 := rfl

@[simp] theorem byteLen_cons (char : Char) (rest : List Char) :
    byteLen (char :: rest) = char.utf8Size + byteLen rest := by
  rw [byteLen, List.map_cons, List.sum_cons]
  rfl

@[simp] theorem byteLen_append (front rest : List Char) :
    byteLen (front ++ rest) = byteLen front + byteLen rest := by
  rw [byteLen, List.map_append, List.sum_append]
  rfl

theorem byteLen_pos (nonempty : text ≠ []) : 0 < byteLen text := by
  obtain ⟨char, rest, rfl⟩ := List.exists_cons_of_ne_nil nonempty
  rw [byteLen_cons]
  exact Nat.add_pos_left char.utf8Size_pos _

theorem length_le_byteLen (text : List Char) : text.length ≤ byteLen text := by
  induction text with
  | nil => exact Nat.le_refl 0
  | cons char rest ih =>
      have positive := char.utf8Size_pos
      rw [List.length_cons, byteLen_cons]
      omega

/-- The length of a text that is not empty is a successor, and the first character fits into it. -/
theorem exists_byteLen_cons (char : Char) (rest : List Char) :
    ∃ index, byteLen (char :: rest) = index + 1 ∧ char.utf8Size ≤ index + 1 ∧
      index + 1 - char.utf8Size = byteLen rest := by
  obtain ⟨index, same⟩ : ∃ index, byteLen (char :: rest) = index + 1 :=
    Nat.exists_eq_succ_of_ne_zero (Nat.pos_iff_ne_zero.mp (byteLen_pos (List.cons_ne_nil char rest)))
  refine ⟨index, same, ?_, ?_⟩
  · rw [← same, byteLen_cons]
    exact Nat.le_add_right _ _
  · rw [← same, byteLen_cons]
    exact Nat.add_sub_cancel_left _ _

/-- A text is split at the end of its first part. -/
theorem splitAtByte_append (front rest : List Char) :
    splitAtByte (front ++ rest) (byteLen front) = some (front, rest) := by
  induction front with
  | nil =>
      rw [List.nil_append, byteLen_nil]
      unfold splitAtByte
      rfl
  | cons char front ih =>
      obtain ⟨index, same, inside, later⟩ := exists_byteLen_cons char front
      rw [same, List.cons_append]
      unfold splitAtByte
      rw [if_pos inside, later, ih]
      rfl

/-- A boundary is the end of a prefix. -/
theorem exists_of_isCharBoundary (boundary : isCharBoundary text index = true) :
    ∃ front rest, text = front ++ rest ∧ byteLen front = index := by
  fun_induction isCharBoundary text index with
  | case1 text => exact ⟨[], text, rfl, rfl⟩
  | case2 => cases boundary
  | case3 char rest index ih =>
      obtain ⟨inside, later⟩ := Bool.and_eq_true_iff.mp boundary
      obtain ⟨front, back, rfl, length⟩ := ih later
      refine ⟨char :: front, back, rfl, ?_⟩
      have fits := of_decide_eq_true inside
      rw [byteLen_cons, length]
      omega

theorem isCharBoundary_append (front rest : List Char) :
    isCharBoundary (front ++ rest) (byteLen front) = true := by
  induction front with
  | nil =>
      rw [List.nil_append, byteLen_nil]
      unfold isCharBoundary
      rfl
  | cons char front ih =>
      obtain ⟨index, same, inside, later⟩ := exists_byteLen_cons char front
      rw [same, List.cons_append]
      unfold isCharBoundary
      rw [later, ih, Bool.and_true]
      exact decide_eq_true inside

theorem isCharBoundary_end (text : List Char) : isCharBoundary text (byteLen text) = true := by
  have whole := isCharBoundary_append text []
  rwa [List.append_nil] at whole

theorem fit_start (budget : Nat) (text : List Char) : fit budget text <+: text := by
  fun_induction fit budget text with
  | case1 => exact List.nil_prefix
  | case2 budget char rest _ ih => exact List.cons_prefix_cons.mpr ⟨rfl, ih⟩
  | case3 => exact List.nil_prefix

theorem byteLen_fit_le (budget : Nat) (text : List Char) : byteLen (fit budget text) ≤ budget := by
  fun_induction fit budget text with
  | case1 => exact Nat.zero_le _
  | case2 budget char rest fits ih =>
      rw [byteLen_cons]
      omega
  | case3 => exact Nat.zero_le _

/-- The next character would exceed the budget. -/
theorem fit_maximal (cut : text = fit budget text ++ char :: rest) :
    budget < byteLen (fit budget text) + char.utf8Size := by
  fun_induction fit budget text with
  | case1 => cases cut
  | case2 budget first text fits ih =>
      rw [List.cons_append, List.cons.injEq] at cut
      have more := ih cut.2
      rw [byteLen_cons]
      omega
  | case3 budget first text exceeds =>
      obtain ⟨rfl, -⟩ := List.cons.inj cut
      rw [byteLen_nil]
      omega

/-- A text is cut where the next character would exceed the budget. -/
theorem exists_fit (budget : Nat) (text : List Char) :
    ∃ front rest, text = front ++ rest ∧ fit budget text = front ∧ byteLen front ≤ budget ∧
      ∀ next ∈ rest.head?, budget < byteLen front + next.utf8Size := by
  obtain ⟨rest, same⟩ := fit_start budget text
  refine ⟨_, rest, same.symm, rfl, byteLen_fit_le budget text, ?_⟩
  intro next first
  obtain ⟨more, rfl⟩ := List.head?_eq_some_iff.mp first
  exact fit_maximal same.symm

/-- A prefix that leaves no room for the next character is the longest one. -/
theorem fit_append (inside : byteLen front ≤ budget)
    (full : ∀ next ∈ rest.head?, budget < byteLen front + next.utf8Size) : fit budget (front ++ rest) = front := by
  induction front generalizing budget with
  | nil =>
      cases rest with
      | nil => rfl
      | cons next rest =>
          have exceeds := full next rfl
          rw [byteLen_nil] at exceeds
          rw [List.nil_append, fit, if_neg (by omega)]
  | cons char front ih =>
      rw [byteLen_cons] at inside
      rw [List.cons_append, fit, if_pos (by omega)]
      congr 1
      apply ih
      · omega
      · intro next first
        have exceeds := full next first
        rw [byteLen_cons] at exceeds
        omega

theorem fit_of_le (inside : byteLen text ≤ budget) : fit budget text = text := by
  have whole : fit budget (text ++ []) = text := fit_append inside nofun
  rwa [List.append_nil] at whole

/-- A prefix that uses the whole budget is the longest one. -/
theorem fit_exact (front rest : List Char) : fit (byteLen front) (front ++ rest) = front :=
  fit_append (Nat.le_refl _) fun next _ => Nat.lt_add_of_pos_right next.utf8Size_pos

/-- A last character that exceeds the budget plays no part. -/
theorem fit_concat (exceeds : budget < byteLen (text ++ [char])) : fit budget (text ++ [char]) = fit budget text := by
  obtain ⟨front, rest, rfl, fitted, small, full⟩ := exists_fit budget text
  rw [fitted, List.append_assoc]
  apply fit_append small
  intro next first
  cases rest with
  | nil =>
      obtain rfl := Option.some.inj first
      rw [List.append_nil, byteLen_append, byteLen_cons, byteLen_nil, Nat.add_zero] at exceeds
      exact exceeds
  | cons other rest => exact full next first

end FastDownloader.Foundation
