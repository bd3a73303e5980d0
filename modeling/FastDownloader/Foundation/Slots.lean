/-
This file gives the facts about changing one slot of a list.
-/

import Mathlib.Algebra.BigOperators.Group.List.Basic
import Mathlib.Algebra.Order.BigOperators.Group.List
import Mathlib.Algebra.Order.Ring.Nat
import Mathlib.Data.List.Nodup
import Mathlib.Tactic.Common

namespace FastDownloader.Foundation

variable {α β : Type*}

/-- A slot update moves a sum by the change of its slot. -/
theorem sum_map_set (value : α → Nat) {slots : List α} {index : Nat} {old : α} (new : α)
    (present : slots[index]? = some old) :
    ((slots.set index new).map value).sum + value old = (slots.map value).sum + value new := by
  induction slots generalizing index with
  | nil => simp at present
  | cons head tail ih =>
      cases index with
      | zero =>
          obtain rfl := Option.some.inj present
          simp only [List.set_cons_zero, List.map_cons, List.sum_cons]
          omega
      | succ index =>
          have rest := ih present
          simp only [List.set_cons_succ, List.map_cons, List.sum_cons]
          omega

/-- The removal of a slot takes its value off a sum. -/
theorem sum_map_eraseIdx (value : α → Nat) {slots : List α} {index : Nat} {old : α}
    (present : slots[index]? = some old) :
    ((slots.eraseIdx index).map value).sum + value old = (slots.map value).sum := by
  induction slots generalizing index with
  | nil => simp at present
  | cons head tail ih =>
      cases index with
      | zero =>
          obtain rfl := Option.some.inj present
          simp only [List.eraseIdx_cons_zero, List.map_cons, List.sum_cons]
          omega
      | succ index =>
          have rest := ih present
          simp only [List.eraseIdx_cons_succ, List.map_cons, List.sum_cons]
          omega

/-- One more slot counts when the predicate holds of it. -/
theorem countP_concat (holds : α → Bool) (slots : List α) (last : α) :
    (slots ++ [last]).countP holds = slots.countP holds + (holds last).toNat := by
  rw [List.countP_append, List.countP_singleton]
  cases holds last <;> rfl

/-- A slot update relates every slot to its old value. -/
theorem forall₂_set {related : α → α → Prop} (refl : ∀ slot, related slot slot)
    {slots : List α} {index : Nat} {old new : α} (present : slots[index]? = some old)
    (changed : related old new) : List.Forall₂ related slots (slots.set index new) := by
  induction slots generalizing index with
  | nil => simp at present
  | cons head tail ih =>
      cases index with
      | zero =>
          obtain rfl := Option.some.inj present
          exact .cons changed (List.forall₂_same.mpr fun slot _ => refl slot)
      | succ index => exact .cons (refl head) (ih present)

/-- A property of all slots survives an update that keeps it. -/
theorem forall_mem_set {holds : α → Prop} {slots : List α} {index : Nat} {new : α}
    (all : ∀ slot ∈ slots, holds slot) (kept : holds new) :
    ∀ slot ∈ slots.set index new, holds slot := by
  intro slot member
  rcases List.mem_or_eq_of_mem_set member with old | same
  · exact all slot old
  · exact same ▸ kept

/-- A slot of the updated list is the new one or an old one at another index. -/
theorem mem_set_cases {slots : List α} {index : Nat} {new slot : α} (member : slot ∈ slots.set index new) :
    slot = new ∨ ∃ other, index ≠ other ∧ slots[other]? = some slot := by
  obtain ⟨other, present⟩ := List.getElem?_of_mem member
  by_cases same : index = other
  · subst same
    rw [List.getElem?_set_self'] at present
    obtain ⟨_, _, rfl⟩ := Option.map_eq_some_iff.mp present
    exact Or.inl rfl
  · rw [List.getElem?_set_ne same] at present
    exact Or.inr ⟨other, same, present⟩

theorem forall₂_trans {related : α → β → Prop} {grows : β → β → Prop} {left : List α} {middle right : List β}
    (compose : ∀ a b c, related a b → grows b c → related a c)
    (first : List.Forall₂ related left middle) (second : List.Forall₂ grows middle right) :
    List.Forall₂ related left right := by
  induction first generalizing right with
  | nil => cases second; exact .nil
  | cons head _ ih =>
      cases second with
      | cons next rest => exact .cons (compose _ _ _ head next) (ih rest)

/-- Related lists have related entries at each index. -/
theorem forall₂_getElem? {related : α → β → Prop} {left : List α} {right : List β}
    (all : List.Forall₂ related left right) {index : Nat} {a : α} (present : left[index]? = some a) :
    ∃ b, right[index]? = some b ∧ related a b := by
  induction all generalizing index with
  | nil => simp at present
  | cons head _ ih =>
      cases index with
      | zero =>
          obtain rfl := Option.some.inj present
          exact ⟨_, rfl, head⟩
      | succ index => exact ih present

/-- An update of one slot changes the relation at this slot, and the other slots keep theirs. -/
theorem forall₂_set_right {related renewed : α → β → Prop} {left : List α} {right : List β} {index : Nat}
    {old new : β} (all : List.Forall₂ related left right) (present : right[index]? = some old)
    (changed : ∀ a, left[index]? = some a → related a old → renewed a new)
    (kept : ∀ (other : Nat) a b, index ≠ other → left[other]? = some a → right[other]? = some b → related a b →
      renewed a b) : List.Forall₂ renewed left (right.set index new) := by
  induction all generalizing index with
  | nil => simp at present
  | cons head rest ih =>
      cases index with
      | zero =>
          obtain rfl := Option.some.inj present
          refine .cons (changed _ rfl head) (List.forall₂_iff_get.mpr ⟨rest.length_eq, fun place inLeft inRight => ?_⟩)
          exact kept (place + 1) _ _ (by omega) (List.getElem?_eq_getElem inLeft) (List.getElem?_eq_getElem inRight)
            (rest.get inLeft inRight)
      | succ index =>
          refine .cons (kept 0 _ _ (by omega) rfl rfl head) (ih present changed fun other a b apart => ?_)
          exact kept (other + 1) a b (by omega)

/-- Bounded summands with an equal sum meet their bounds. -/
theorem eq_of_sum_eq {lower upper : α → Nat} {slots : List α}
    (bounded : ∀ slot ∈ slots, lower slot ≤ upper slot)
    (same : (slots.map lower).sum = (slots.map upper).sum) :
    ∀ slot ∈ slots, lower slot = upper slot := by
  induction slots with
  | nil => simp
  | cons head tail ih =>
      simp only [List.mem_cons, forall_eq_or_imp] at bounded ⊢
      simp only [List.map_cons, List.sum_cons] at same
      have rest : (tail.map lower).sum ≤ (tail.map upper).sum := List.sum_le_sum bounded.2
      have first := bounded.1
      exact ⟨by omega, ih bounded.2 (by omega)⟩

/-- When no slot comes to a property, the number of the slots with it does not grow. -/
theorem countP_le_of_forall₂ {holds : α → Bool} {before after : List α}
    (all : List.Forall₂ (fun old new => holds new = true → holds old = true) before after) :
    after.countP holds ≤ before.countP holds := by
  induction all with
  | nil => exact Nat.le_refl _
  | @cons old new before after kept _ ih =>
      rw [List.countP_cons, List.countP_cons]
      split_ifs with now was
      · omega
      · exact absurd (kept now) was
      · omega
      · omega

/-- A slot update adds at most one slot to those with a property. -/
theorem countP_set_le (holds : α → Bool) (slots : List α) (index : Nat) (new : α) :
    (slots.set index new).countP holds ≤ slots.countP holds + 1 := by
  induction slots generalizing index with
  | nil => exact Nat.zero_le _
  | cons head tail ih =>
      cases index with
      | zero =>
          rw [List.set_cons_zero, List.countP_cons, List.countP_cons]
          split_ifs <;> omega
      | succ index =>
          have rest := ih index
          rw [List.set_cons_succ, List.countP_cons, List.countP_cons]
          omega

/-- A property with two causes holds of at most as many slots as the causes do together. -/
theorem countP_le_add {holds first second : α → Bool} {slots : List α}
    (caused : ∀ slot ∈ slots, holds slot = true → first slot = true ∨ second slot = true) :
    slots.countP holds ≤ slots.countP first + slots.countP second := by
  induction slots with
  | nil => exact Nat.zero_le _
  | cons head tail ih =>
      have rest := ih fun slot member => caused slot (List.mem_cons_of_mem _ member)
      have here := caused head List.mem_cons_self
      rw [List.countP_cons, List.countP_cons, List.countP_cons]
      split_ifs with now one two <;> try omega
      rcases here now with yes | yes <;> contradiction

/-- When every slot with a property has its own message in a list, the list is at least that long. -/
theorem countP_le_length {message : Nat → β} (injective : Function.Injective message) {holds : α → Bool}
    {slots : List α} {messages : List β}
    (posted : ∀ index slot, slots[index]? = some slot → holds slot = true → message index ∈ messages) :
    slots.countP holds ≤ messages.length := by
  have apart : ((slots.findIdxs holds).map message).Nodup := List.Nodup.map injective List.nodup_findIdxs
  have listed : (slots.findIdxs holds).map message ⊆ messages := by
    intro sent member
    obtain ⟨index, found, rfl⟩ := List.mem_map.mp member
    obtain ⟨inside, yes⟩ := List.mem_findIdxs_iff_exists_getElem_pos.mp found
    exact posted index _ (List.getElem?_eq_getElem inside) yes
  have bound := (List.subperm_of_subset apart listed).length_le
  rwa [List.length_map, List.length_findIdxs] at bound

end FastDownloader.Foundation
