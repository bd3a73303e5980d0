/-
This file finds the first element of greatest weight in a list that is read in parts.
-/

import Mathlib.Data.List.MinMax
import Mathlib.Tactic.Common

namespace FastDownloader.Foundation

variable {α β γ : Type} [LinearOrder β] {weight : α → β}

/-- Nothing before the winner is as heavy, and nothing behind it is heavier. -/
theorem argmax_eq_some_split {values : List α} {best : α} :
    values.argmax weight = some best ↔ ∃ front back, values = front ++ best :: back ∧
      (∀ other ∈ front, weight other < weight best) ∧ ∀ other ∈ back, weight other ≤ weight best := by
  constructor
  · intro winner
    induction values with
    | nil => exact absurd winner (Option.some_ne_none best).symm
    | cons first rest ih =>
        rw [List.argmax_cons] at winner
        cases later : rest.argmax weight with
        | none =>
            rw [later] at winner
            obtain rfl := Option.some.inj winner
            obtain rfl := List.argmax_eq_none.mp later
            exact ⟨[], [], rfl, List.forall_mem_nil _, List.forall_mem_nil _⟩
        | some other =>
            simp only [later] at winner
            split_ifs at winner with heavier
            · obtain rfl := Option.some.inj winner
              obtain ⟨front, back, shape, lighter, bounded⟩ := ih later
              refine ⟨first :: front, back, by rw [shape, List.cons_append], ?_, bounded⟩
              exact List.forall_mem_cons.mpr ⟨heavier, lighter⟩
            · obtain rfl := Option.some.inj winner
              refine ⟨[], rest, rfl, List.forall_mem_nil _, ?_⟩
              intro value member
              exact (List.le_of_mem_argmax member later).trans (not_lt.mp heavier)
  · rintro ⟨front, back, rfl, lighter, bounded⟩
    induction front with
    | nil =>
        rw [List.nil_append, List.argmax_cons]
        cases later : back.argmax weight with
        | none => rfl
        | some other => exact if_neg (not_lt.mpr (bounded other (List.argmax_mem later)))
    | cons first front ih =>
        rw [List.forall_mem_cons] at lighter
        rw [List.cons_append, List.argmax_cons, ih lighter.2]
        exact if_pos lighter.1

/-- The winner among the entries that can be read stands at one of them. -/
theorem argmax_filterMap_eq_some {read : γ → Option α} {entries : List γ} {best : α} :
    (entries.filterMap read).argmax weight = some best ↔ ∃ front entry back, entries = front ++ entry :: back ∧
      read entry = some best ∧ (∀ other ∈ front, ∀ value, read other = some value → weight value < weight best) ∧
      ∀ other ∈ back, ∀ value, read other = some value → weight value ≤ weight best := by
  rw [argmax_eq_some_split]
  constructor
  · rintro ⟨lighter, lower, shape, below, bounded⟩
    obtain ⟨before, behind, rfl, rfl, later⟩ := List.filterMap_eq_append_iff.mp shape
    obtain ⟨unread, entry, back, rfl, skipped, found, rfl⟩ := List.filterMap_eq_cons_iff.mp later
    have same : (before ++ unread).filterMap read = before.filterMap read := by
      rw [List.filterMap_append, List.filterMap_eq_nil_iff.mpr skipped, List.append_nil]
    rw [← same] at below
    exact ⟨before ++ unread, entry, back, (List.append_assoc _ _ _).symm, found, List.forall_mem_filterMap.mp below,
      List.forall_mem_filterMap.mp bounded⟩
  · rintro ⟨front, entry, back, rfl, found, below, bounded⟩
    refine ⟨front.filterMap read, back.filterMap read, ?_, List.forall_mem_filterMap.mpr below,
      List.forall_mem_filterMap.mpr bounded⟩
    rw [List.filterMap_append, List.filterMap_cons_some found]

/-- Of the second part only its own winner counts. -/
theorem argmax_append (front back : List α) :
    (front ++ (back.argmax weight).toList).argmax weight = (front ++ back).argmax weight := by
  induction front with
  | nil =>
      rw [List.nil_append, List.nil_append]
      cases back.argmax weight with
      | none => rfl
      | some best => rfl
  | cons first front ih => rw [List.cons_append, List.cons_append, List.argmax_cons, List.argmax_cons, ih]

end FastDownloader.Foundation
