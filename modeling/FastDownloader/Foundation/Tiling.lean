/-
This file describes lists of half-open intervals that follow each other without a gap.
-/

import Mathlib.Algebra.Order.Ring.Nat
import Mathlib.Data.List.Forall2
import Mathlib.Tactic.Common

namespace FastDownloader.Foundation

variable {α β : Type*}

/-- The intervals of the list are consecutive from `first` to `last`. -/
def Tiles (low high : α → Nat) : Nat → Nat → List α → Prop
  | first, last, [] => first = last
  | first, last, tile :: rest => low tile = first ∧ first ≤ high tile ∧ Tiles low high (high tile) last rest

variable {low high : α → Nat} {first last : Nat} {tiles : List α}

theorem Tiles.le (covered : Tiles low high first last tiles) : first ≤ last := by
  induction tiles generalizing first with
  | nil => exact Nat.le_of_eq covered
  | cons tile rest ih =>
      have := ih covered.2.2
      have := covered.2.1
      omega

/-- Each interval lies inside the covered range. -/
theorem Tiles.bounds (covered : Tiles low high first last tiles) :
    ∀ tile ∈ tiles, first ≤ low tile ∧ low tile ≤ high tile ∧ high tile ≤ last := by
  induction tiles generalizing first with
  | nil => simp
  | cons tile rest ih =>
      obtain ⟨start, ordered, tail⟩ := covered
      intro other member
      rcases List.mem_cons.mp member with same | later
      · subst other
        exact ⟨by omega, by omega, tail.le⟩
      · obtain ⟨lower, middle, upper⟩ := ih tail other later
        exact ⟨by omega, middle, upper⟩

/-- The lengths of the intervals add up to the length of the covered range. -/
theorem Tiles.sum (covered : Tiles low high first last tiles) :
    (tiles.map fun tile => high tile - low tile).sum + first = last := by
  induction tiles generalizing first with
  | nil =>
      have same : first = last := covered
      simp [same]
  | cons tile rest ih =>
      obtain ⟨start, ordered, tail⟩ := covered
      have := ih tail
      simp only [List.map_cons, List.sum_cons]
      omega

/-- Each point of the covered range lies in one interval. -/
theorem Tiles.exists_tile (covered : Tiles low high first last tiles) {point : Nat}
    (lower : first ≤ point) (upper : point < last) :
    ∃ (index : Nat) (tile : α), tiles[index]? = some tile ∧ low tile ≤ point ∧ point < high tile := by
  induction tiles generalizing first with
  | nil =>
      have same : first = last := covered
      omega
  | cons tile rest ih =>
      obtain ⟨start, ordered, tail⟩ := covered
      by_cases inside : point < high tile
      · exact ⟨0, tile, rfl, by omega, inside⟩
      · obtain ⟨index, other, present, bounds⟩ := ih tail (by omega)
        exact ⟨index + 1, other, present, bounds⟩

/-- Intervals at different places do not overlap. -/
theorem Tiles.disjoint (covered : Tiles low high first last tiles) {left right : Nat} {a b : α}
    (order : left < right) (atLeft : tiles[left]? = some a) (atRight : tiles[right]? = some b) :
    high a ≤ low b := by
  induction tiles generalizing first left right with
  | nil => simp at atLeft
  | cons tile rest ih =>
      obtain ⟨start, ordered, tail⟩ := covered
      obtain ⟨right, rfl⟩ := Nat.exists_eq_succ_of_ne_zero (by omega : right ≠ 0)
      cases left with
      | zero =>
          obtain rfl := Option.some.inj atLeft
          exact (tail.bounds b (List.mem_of_getElem? atRight)).1
      | succ left => exact ih tail (by omega) atLeft atRight

/-- Two intervals that share a point are the same interval. -/
theorem Tiles.unique (covered : Tiles low high first last tiles) {left right : Nat} {a b : α} {point : Nat}
    (atLeft : tiles[left]? = some a) (atRight : tiles[right]? = some b)
    (inLeft : low a ≤ point ∧ point < high a) (inRight : low b ≤ point ∧ point < high b) : left = right := by
  rcases Nat.lt_trichotomy left right with before | same | behind
  · have := covered.disjoint before atLeft atRight
    omega
  · exact same
  · have := covered.disjoint behind atRight atLeft
    omega

/-- Consecutive intervals begin at the first point, meet each other and end at the last point. -/
theorem tiles_iff_isChain (nonempty : tiles ≠ []) :
    Tiles low high first last tiles ↔
      tiles.head?.map low = some first ∧ tiles.IsChain (fun left right => low right = high left) ∧
        tiles.getLast?.map high = some last ∧ ∀ tile ∈ tiles, low tile ≤ high tile := by
  induction tiles generalizing first with
  | nil => exact absurd rfl nonempty
  | cons tile rest ih =>
      cases rest with
      | nil =>
          simp only [Tiles, List.head?_cons, Option.map_some, Option.some.injEq, List.IsChain.singleton,
            List.getLast?_singleton, List.mem_singleton, forall_eq, true_and]
          constructor
          · rintro ⟨start, ordered, stop⟩
            exact ⟨start, stop, by omega⟩
          · rintro ⟨start, stop, ordered⟩
            exact ⟨start, by omega, stop⟩
      | cons next rest =>
          have tail := @ih (high tile) (List.cons_ne_nil next rest)
          unfold Tiles
          rw [tail]
          simp only [List.head?_cons, Option.map_some, Option.some.injEq, List.isChain_cons_cons,
            List.getLast?_cons_cons, List.mem_cons, forall_eq_or_imp]
          constructor
          · rintro ⟨start, ordered, joined, chain, stop, others⟩
            exact ⟨start, ⟨joined, chain⟩, stop, by omega, others⟩
          · rintro ⟨start, ⟨joined, chain⟩, stop, ordered, others⟩
            exact ⟨start, by omega, joined, chain, stop, others⟩

/-- Covering depends only on the end points. -/
theorem Tiles.congr {low' high' : β → Nat} {tiles' : List β}
    (same : List.Forall₂ (fun a b => low' b = low a ∧ high' b = high a) tiles tiles')
    (covered : Tiles low high first last tiles) : Tiles low' high' first last tiles' := by
  induction same generalizing first with
  | nil => exact covered
  | cons head _ ih =>
      obtain ⟨start, ordered, tail⟩ := covered
      exact ⟨by omega, by omega, head.2 ▸ ih tail⟩

end FastDownloader.Foundation
