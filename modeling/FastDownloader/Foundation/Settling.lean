/-
This file gives the rank rule: a machine whose steps lower a rank comes to its goal.
-/

import Mathlib.Order.WellFounded
import FastDownloader.Foundation.Transition

namespace FastDownloader.Foundation

variable {State Label : Type*} {step : Step State Label} {guard idle : State → Label → Prop}
  {goal holds : State → Prop} {rank : State → Nat} {first : State}

/-- An endless run takes a guarded step at every moment. -/
structure Endless (step : Step State Label) (guard : State → Label → Prop) (first : State)
    (states : Nat → State) (labels : Nat → Label) : Prop where
  start : states 0 = first
  admitted : ∀ moment, guard (states moment) (labels moment)
  taken : ∀ moment, step (states moment) (labels moment) = some (states (moment + 1))

/-- Every guarded run can be led on to the goal, and every endless run idles from some moment on. -/
structure Settles (step : Step State Label) (guard idle : State → Label → Prop) (goal : State → Prop)
    (first : State) : Prop where
  reaches : ∀ labels last, Run step guard first labels last → ∃ final, goal final ∧ Reaches step guard last final
  calms : ∀ states labels, Endless step guard first states labels →
    ∃ calm, ∀ moment, calm ≤ moment → idle (states moment) (labels moment)

/-- These are the obligations of a rank: an invariant, a rank that only idle steps leave as it is, and a next step
that is not idle. -/
structure Ranked (step : Step State Label) (guard idle : State → Label → Prop) (goal holds : State → Prop)
    (rank : State → Nat) : Prop where
  preserved : ∀ before label after, holds before → guard before label → step before label = some after → holds after
  falls : ∀ before label after, holds before → guard before label → step before label = some after →
    rank after < rank before ∨ (idle before label ∧ rank after ≤ rank before)
  moves : ∀ state, holds state → ¬ goal state → ∃ label, guard state label ∧ ¬ idle state label ∧
    (step state label).isSome

/-- The same obligations for a rank in any well-founded order. -/
structure Descends {Rank : Type*} [Preorder Rank] (step : Step State Label) (guard idle : State → Label → Prop)
    (goal holds : State → Prop) (height : State → Rank) : Prop where
  preserved : ∀ before label after, holds before → guard before label → step before label = some after → holds after
  falls : ∀ before label after, holds before → guard before label → step before label = some after →
    height after < height before ∨ (idle before label ∧ height after ≤ height before)
  moves : ∀ state, holds state → ¬ goal state → ∃ label, guard state label ∧ ¬ idle state label ∧
    (step state label).isSome

section Descent

variable {Rank : Type*} [Preorder Rank] [WellFoundedLT Rank] {height : State → Rank}

/-- A ranked state reaches the goal. -/
theorem Descends.reaches (descends : Descends step guard idle goal holds height) (state : State) :
    holds state → ∃ final, goal final ∧ Reaches step guard state final := by
  induction state using WellFounded.induction (InvImage.wf height wellFounded_lt) with
  | _ state ih =>
      intro held
      by_cases arrived : goal state
      · exact ⟨state, arrived, .refl state⟩
      · obtain ⟨label, admitted, busy, enabled⟩ := descends.moves state held arrived
        obtain ⟨next, taken⟩ := Option.isSome_iff_exists.mp enabled
        have lower : height next < height state :=
          (descends.falls state label next held admitted taken).resolve_right fun stays => busy stays.1
        obtain ⟨final, arrives, more⟩ := ih next lower (descends.preserved state label next held admitted taken)
        exact ⟨final, arrives, (Reaches.single label admitted taken).trans more⟩

/-- A sequence that never rises falls only finitely often. -/
theorem eventually_level (heights : Nat → Rank) (falling : ∀ moment, heights (moment + 1) ≤ heights moment) :
    ∃ calm, ∀ moment, calm ≤ moment → ¬ heights (moment + 1) < heights moment := by
  have antitone : Antitone heights := antitone_nat_of_succ_le falling
  obtain ⟨lowest, ⟨calm, rfl⟩, below⟩ := WellFounded.has_min wellFounded_lt (Set.range heights) ⟨_, 0, rfl⟩
  exact ⟨calm, fun moment later lower => below _ ⟨moment + 1, rfl⟩ (lt_of_lt_of_le lower (antitone later))⟩

theorem Descends.settles (descends : Descends step guard idle goal holds height) (initial : holds first) :
    Settles step guard idle goal first where
  reaches labels last run := descends.reaches last (run.invariant holds descends.preserved initial)
  calms states labels endless := by
    have held : ∀ moment, holds (states moment) := by
      intro moment
      induction moment with
      | zero => exact endless.start ▸ initial
      | succ moment ih => exact descends.preserved _ _ _ ih (endless.admitted moment) (endless.taken moment)
    have falls := fun moment =>
      descends.falls _ _ _ (held moment) (endless.admitted moment) (endless.taken moment)
    obtain ⟨calm, level⟩ := eventually_level (fun moment => height (states moment)) fun moment =>
      (falls moment).elim le_of_lt And.right
    exact ⟨calm, fun moment later => ((falls moment).resolve_left (level moment later)).1⟩

end Descent

theorem Ranked.settles (ranked : Ranked step guard idle goal holds rank) (initial : holds first) :
    Settles step guard idle goal first :=
  Descends.settles ⟨ranked.preserved, ranked.falls, ranked.moves⟩ initial

end FastDownloader.Foundation
