/-
This file strips the elements around a list that satisfy a test.
-/

import Mathlib.Data.List.DropRight

namespace FastDownloader.Foundation

variable {α : Type} {test : α → Bool} {before core behind : List α}

theorem rdropWhile_append_of_pos (stripped : ∀ value ∈ behind, test value = true) :
    (core ++ behind).rdropWhile test = core.rdropWhile test := by
  have reversed : ∀ value ∈ behind.reverse, test value = true := by
    intro value member
    exact stripped value (List.mem_reverse.mp member)
  rw [List.rdropWhile, List.reverse_append, List.dropWhile_append_of_pos reversed]
  rfl

/-- The core is left when none of its own elements can be stripped. -/
theorem strip_around (front : ∀ value ∈ before, test value = true) (kept : ∀ value ∈ core, test value = false)
    (back : ∀ value ∈ behind, test value = true) :
    ((before ++ core ++ behind).dropWhile test).rdropWhile test = core := by
  rw [List.append_assoc, List.dropWhile_append_of_pos front]
  cases core with
  | nil =>
      rw [List.nil_append, List.dropWhile_eq_nil_iff.mpr back]
      exact List.rdropWhile_nil test
  | cons first others =>
      have stays : ¬ test first = true := by
        rw [kept first List.mem_cons_self]
        exact Bool.false_ne_true
      rw [List.cons_append, List.dropWhile_cons_of_neg stays, ← List.cons_append, rdropWhile_append_of_pos back]
      apply List.rdropWhile_eq_self_iff.mpr
      intro nonempty
      rw [kept _ (List.getLast_mem nonempty)]
      exact Bool.false_ne_true

theorem strip_self (kept : ∀ value ∈ core, test value = false) : (core.dropWhile test).rdropWhile test = core := by
  have around := strip_around (List.forall_mem_nil _) kept (List.forall_mem_nil _)
  rwa [List.nil_append, List.append_nil] at around

end FastDownloader.Foundation
