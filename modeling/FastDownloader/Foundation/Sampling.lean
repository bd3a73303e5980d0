/-
This file gives the samples that an observer takes of a value that only grows.
-/

import Mathlib.Order.Basic
import Mathlib.Tactic.Common

namespace FastDownloader.Foundation

variable {α : Type*} [Preorder α] {floor current later : α} {samples : List α}

/-- These are samples, in their order, of a value that has grown from the floor to its current size. -/
structure Sampled (floor current : α) (samples : List α) : Prop where
  grown : floor ≤ current
  sorted : samples.Pairwise (· ≤ ·)
  above : ∀ sample ∈ samples, floor ≤ sample
  below : ∀ sample ∈ samples, sample ≤ current

namespace Sampled

theorem nil (grown : floor ≤ current) : Sampled floor current [] := ⟨grown, .nil, nofun, nofun⟩

/-- The value may grow between two samples. -/
theorem grow (sampled : Sampled floor current samples) (more : current ≤ later) : Sampled floor later samples where
  grown := sampled.grown.trans more
  sorted := sampled.sorted
  above := sampled.above
  below := fun sample member => (sampled.below sample member).trans more

/-- A new sample comes behind all earlier ones. -/
theorem take (sampled : Sampled floor current samples) : Sampled floor current (samples ++ [current]) where
  grown := sampled.grown
  sorted := by
    refine List.pairwise_append.mpr ⟨sampled.sorted, List.pairwise_singleton _ _, ?_⟩
    intro sample member
    exact List.forall_mem_singleton.mpr (sampled.below sample member)
  above := by
    rw [List.forall_mem_append]
    exact ⟨sampled.above, List.forall_mem_singleton.mpr sampled.grown⟩
  below := by
    rw [List.forall_mem_append]
    exact ⟨sampled.below, List.forall_mem_singleton.mpr le_rfl⟩

end Sampled

end FastDownloader.Foundation
