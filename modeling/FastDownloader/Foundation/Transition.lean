/-
This file gives guarded runs of a partial labelled step function and their invariant rule.
-/

import Mathlib.Algebra.Order.Ring.Nat
import Mathlib.Logic.Basic

namespace FastDownloader.Foundation

/-- A machine takes one labelled step or refuses it. -/
abbrev Step (State Label : Type*) := State → Label → Option State

variable {State Label : Type*}

/-- A guarded run takes each label of its list, and the guard admits each label in the state before it. -/
inductive Run (step : Step State Label) (guard : State → Label → Prop) :
    State → List Label → State → Prop
  | nil (state : State) : Run step guard state [] state
  | cons {first middle last : State} {label : Label} {labels : List Label}
      (admitted : guard first label) (taken : step first label = some middle)
      (rest : Run step guard middle labels last) : Run step guard first (label :: labels) last

namespace Run

variable {step : Step State Label} {guard stronger : State → Label → Prop}
  {first middle last : State} {labels more : List Label}

theorem append (start : Run step guard first labels middle) (rest : Run step guard middle more last) :
    Run step guard first (labels ++ more) last := by
  induction start with
  | nil => exact rest
  | cons admitted taken _ ih => exact cons admitted taken (ih rest)

/-- A run under a stronger guard is a run under the weaker one. -/
theorem mono (weaker : ∀ state label, stronger state label → guard state label)
    (run : Run step stronger first labels last) : Run step guard first labels last := by
  induction run with
  | nil => exact nil _
  | cons admitted taken _ ih => exact cons (weaker _ _ admitted) taken ih

/-- An invariant that each admitted step preserves holds after a whole run. -/
theorem invariant (holds : State → Prop)
    (preserved : ∀ before label after, holds before → guard before label →
      step before label = some after → holds after)
    (run : Run step guard first labels last) (initial : holds first) : holds last := by
  induction run with
  | nil => exact initial
  | cons admitted taken _ ih => exact ih (preserved _ _ _ initial admitted taken)

theorem history_from (holds : List Label → State → Prop)
    (preserved : ∀ past before label after, holds past before → guard before label →
      step before label = some after → holds (past ++ [label]) after)
    (run : Run step guard first labels last) {past : List Label} (initial : holds past first) :
    holds (past ++ labels) last := by
  induction run generalizing past with
  | nil => rwa [List.append_nil]
  | cons admitted taken _ ih =>
      have whole := ih (preserved _ _ _ _ initial admitted taken)
      rwa [List.append_assoc, List.singleton_append] at whole

/-- So does an invariant that knows the labels of the run so far. -/
theorem history (holds : List Label → State → Prop)
    (preserved : ∀ past before label after, holds past before → guard before label →
      step before label = some after → holds (past ++ [label]) after)
    (run : Run step guard first labels last) (initial : holds [] first) : holds labels last :=
  history_from holds preserved run initial

end Run

/-- Some guarded run leads from one state to the other. -/
def Reaches (step : Step State Label) (guard : State → Label → Prop) (first last : State) : Prop :=
  ∃ labels, Run step guard first labels last

namespace Reaches

variable {step : Step State Label} {guard : State → Label → Prop} {first middle last : State}

theorem refl (state : State) : Reaches step guard state state := ⟨[], .nil state⟩

theorem trans (start : Reaches step guard first middle) (rest : Reaches step guard middle last) :
    Reaches step guard first last := by
  obtain ⟨labels, run⟩ := start
  obtain ⟨more, further⟩ := rest
  exact ⟨labels ++ more, run.append further⟩

theorem single (label : Label) (admitted : guard first label) (taken : step first label = some last) :
    Reaches step guard first last :=
  ⟨[label], .cons admitted taken (.nil last)⟩

end Reaches

/-- This function replays a list of labels. -/
def replay (step : Step State Label) : State → List Label → Option State
  | state, [] => some state
  | state, label :: labels => (step state label).bind fun next => replay step next labels

/-- This predicate checks the guard along a replay. -/
def Admitted (step : Step State Label) (guard : State → Label → Prop) : State → List Label → Prop
  | _, [] => True
  | state, label :: labels =>
      guard state label ∧ ∀ next ∈ step state label, Admitted step guard next labels

/-- A replay whose labels are all admitted is a guarded run. -/
theorem run_of_replay {step : Step State Label} {guard : State → Label → Prop}
    {first last : State} {labels : List Label}
    (admitted : Admitted step guard first labels) (replayed : replay step first labels = some last) :
    Run step guard first labels last := by
  induction labels generalizing first with
  | nil =>
      have same : first = last := Option.some.inj replayed
      exact same ▸ Run.nil _
  | cons label labels ih =>
      obtain ⟨next, taken, rest⟩ := Option.bind_eq_some_iff.mp replayed
      exact Run.cons admitted.1 taken (ih (admitted.2 next taken) rest)

/-- A decidable guard can be checked along a replay. -/
instance decidableAdmitted {step : Step State Label} {guard : State → Label → Prop}
    [∀ state label, Decidable (guard state label)] :
    ∀ state labels, Decidable (Admitted step guard state labels)
  | _, [] => .isTrue trivial
  | state, label :: labels =>
      haveI : ∀ next, Decidable (Admitted step guard next labels) := fun next => decidableAdmitted next labels
      inferInstanceAs (Decidable (guard state label ∧ ∀ next ∈ step state label, Admitted step guard next labels))

/-- The labels after a run are admitted in the state that the run reaches. -/
theorem Run.admitted_rest {step : Step State Label} {allowed guard : State → Label → Prop} {first middle : State}
    {labels more : List Label} (run : Run step allowed first labels middle)
    (admitted : Admitted step guard first (labels ++ more)) : Admitted step guard middle more := by
  induction run with
  | nil => exact admitted
  | cons _ taken _ ih => exact ih (admitted.2 _ taken)

/-- A run whose labels pass a second guard on the way is a run under both guards. -/
theorem Run.both {step : Step State Label} {allowed guard : State → Label → Prop} {first last : State}
    {labels : List Label} (run : Run step allowed first labels last) (admitted : Admitted step guard first labels) :
    Run step (fun state label => guard state label ∧ allowed state label) first labels last := by
  induction run with
  | nil => exact .nil _
  | cons permitted taken _ ih => exact .cons ⟨admitted.1, permitted⟩ taken (ih (admitted.2 _ taken))

theorem Run.guarded {step : Step State Label} {guard : State → Label → Prop} {first last : State}
    {labels : List Label} (run : Run step (fun _ _ => True) first labels last)
    (admitted : Admitted step guard first labels) : Run step guard first labels last :=
  (run.both admitted).mono fun _ _ passed => passed.1

/-- A run passes a guard when an invariant of the run lets each of its steps pass. -/
theorem Run.admitted_of {step : Step State Label} {allowed guard : State → Label → Prop} (holds : State → Prop)
    (preserved : ∀ before label after, holds before → allowed before label → step before label = some after →
      holds after ∧ guard before label)
    {first last : State} {labels : List Label} (run : Run step allowed first labels last)
    (initial : holds first) : Admitted step guard first labels := by
  induction run with
  | nil => trivial
  | cons permitted taken _ ih =>
      obtain ⟨held, passed⟩ := preserved _ _ _ initial permitted taken
      refine ⟨passed, fun next found => ?_⟩
      obtain rfl := Option.some.inj (taken.symm.trans found)
      exact ih held

/-- When each step that breaks the guard raises a flag, and a raised flag stays, a run passes the guard or ends with
the flag. -/
theorem Run.admitted_or {step : Step State Label} {guard : State → Label → Prop} (holds flag : State → Prop)
    (preserved : ∀ before label after, holds before → step before label = some after →
      holds after ∧ (guard before label ∨ flag after) ∧ (flag before → flag after))
    {first last : State} {labels : List Label} (run : Run step (fun _ _ => True) first labels last)
    (initial : holds first) : Admitted step guard first labels ∨ flag last := by
  have stays : ∀ {first last : State} {labels : List Label}, Run step (fun _ _ => True) first labels last →
      holds first ∧ flag first → holds last ∧ flag last := fun later =>
    later.invariant (fun state => holds state ∧ flag state) fun before label after both _ taken =>
      ⟨(preserved before label after both.1 taken).1, (preserved before label after both.1 taken).2.2 both.2⟩
  induction run with
  | nil => exact Or.inl trivial
  | cons _ taken rest ih =>
      obtain ⟨held, passes, _⟩ := preserved _ _ _ initial taken
      rcases passes with passed | raised
      · refine (ih held).imp_left fun admitted => ⟨passed, fun next found => ?_⟩
        obtain rfl := Option.some.inj (taken.symm.trans found)
        exact admitted
      · exact Or.inr (stays rest ⟨held, raised⟩).2

/-- When a flag is raised by exactly the steps that break the guard, it tells whether a run has passed the guard. -/
theorem Run.raised_iff {step : Step State Label} {allowed guard : State → Label → Prop} (holds flag : State → Prop)
    (raised : ∀ before label after, holds before → allowed before label → step before label = some after →
      holds after ∧ (flag after ↔ flag before ∨ ¬ guard before label))
    {first last : State} {labels : List Label} (run : Run step allowed first labels last)
    (initial : holds first) : flag last ↔ flag first ∨ ¬ Admitted step guard first labels := by
  induction run with
  | nil => simp only [Admitted, not_true_eq_false, or_false]
  | @cons first middle last label labels permitted taken rest ih =>
      obtain ⟨held, now⟩ := raised _ _ _ initial permitted taken
      have admitted : Admitted step guard first (label :: labels) ↔
          guard first label ∧ Admitted step guard middle labels := by
        simp only [Admitted, taken, Option.mem_def, Option.some.injEq, forall_eq']
      rw [ih held, now, admitted, not_and_or, or_assoc]

end FastDownloader.Foundation
