/-
This file gives sums and differences of bounded numbers. They fail where a machine word would wrap.
-/

import Mathlib.Algebra.Order.Ring.Nat
import Mathlib.Algebra.BigOperators.Group.List.Basic
import Mathlib.Tactic.Common

namespace FastDownloader.Foundation

/-- The difference is absent where it would go below zero. -/
def checkedSub (minuend subtrahend : Nat) : Option Nat :=
  if subtrahend ≤ minuend then some (minuend - subtrahend) else none

/-- The sum is absent where it would reach the limit. -/
def checkedAdd (limit left right : Nat) : Option Nat :=
  if left + right < limit then some (left + right) else none

/-- The sum of a list is built from its front. It is absent where one of the steps would wrap. -/
def checkedSum (limit : Nat) (values : List Nat) : Option Nat := values.foldlM (checkedAdd limit) 0

variable {limit : Nat}

theorem checkedSub_of_le {minuend subtrahend : Nat} (ordered : subtrahend ≤ minuend) :
    checkedSub minuend subtrahend = some (minuend - subtrahend) := if_pos ordered

theorem checkedAdd_of_lt {left right : Nat} (fits : left + right < limit) :
    checkedAdd limit left right = some (left + right) := if_pos fits

/-- A sum that is there has not reached the limit. -/
theorem checkedAdd_eq_some {left right sum : Nat} (added : checkedAdd limit left right = some sum) :
    left + right < limit ∧ sum = left + right := by
  rw [checkedAdd] at added
  split_ifs at added with fits
  exact ⟨fits, (Option.some.inj added).symm⟩

/-- When the whole sum fits, no step of it wraps. -/
theorem foldlM_checkedAdd {values : List Nat} {start : Nat} (fits : start + values.sum < limit) :
    values.foldlM (checkedAdd limit) start = some (start + values.sum) := by
  induction values generalizing start with
  | nil => rfl
  | cons value rest ih =>
      rw [List.sum_cons, ← Nat.add_assoc] at fits ⊢
      rw [List.foldlM_cons, checkedAdd_of_lt (by omega)]
      exact ih fits

theorem checkedSum_of_lt {values : List Nat} (fits : values.sum < limit) :
    checkedSum limit values = some values.sum := by
  have whole : 0 + values.sum < limit := by rwa [Nat.zero_add]
  have summed := foldlM_checkedAdd whole
  rwa [Nat.zero_add] at summed

end FastDownloader.Foundation
