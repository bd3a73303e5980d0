/-
This file composes the runs of one program over a store that outlives each run.
-/

import FastDownloader.Foundation.Transition

namespace FastDownloader.Foundation

/-- A program starts a process for a job, steps it over a store, and ends with an outcome. -/
structure Program (Store Process Job Label Outcome : Type*) where
  start : Job → Process
  step : Job → Step (Store × Process) Label
  outcome : Process → Option Outcome

/-- A session starts a process, steps it, lets it return, or kills it at any step. -/
inductive Move (Job Label : Type*) where
  | start (job : Job)
  | step (label : Label)
  | finish
  | kill

/-- At most one process is active. Only the store survives a process: what the process has under way is forgotten. -/
structure Session (Store Process Job : Type*) where
  store : Store
  active : Option (Job × Process)

variable {Store Process Job Label Outcome : Type*}

def Program.session (program : Program Store Process Job Label Outcome) :
    Step (Session Store Process Job) (Move Job Label)
  | ⟨store, none⟩, .start job => some ⟨store, some (job, program.start job)⟩
  | ⟨store, some (job, process)⟩, .step label =>
      (program.step job (store, process) label).map fun next => ⟨next.1, some (job, next.2)⟩
  | ⟨store, some (_, process)⟩, .finish =>
      if (program.outcome process).isSome then some ⟨store, none⟩ else none
  | ⟨store, some _⟩, .kill => some ⟨store, none⟩
  | _, _ => none

/-- A session invariant has one part between runs and one part during a run. -/
def Session.Holds (idle : Store → Prop) (busy : Job → Store → Process → Prop) :
    Session Store Process Job → Prop
  | ⟨store, none⟩ => idle store
  | ⟨store, some (job, process)⟩ => busy job store process

/-- These are the obligations of a session invariant, one for each kind of move. -/
structure Program.Keeps (program : Program Store Process Job Label Outcome)
    (guard : Session Store Process Job → Move Job Label → Prop)
    (idle : Store → Prop) (busy : Job → Store → Process → Prop) : Prop where
  start : ∀ store job, idle store → guard ⟨store, none⟩ (.start job) →
    busy job store (program.start job)
  step : ∀ job store process label next, busy job store process →
    guard ⟨store, some (job, process)⟩ (.step label) →
    program.step job (store, process) label = some next → busy job next.1 next.2
  finish : ∀ job store process outcome, busy job store process →
    guard ⟨store, some (job, process)⟩ .finish → program.outcome process = some outcome → idle store
  kill : ∀ job store process, busy job store process →
    guard ⟨store, some (job, process)⟩ .kill → idle store

/-- The obligations give the invariant at every moment of every session. -/
theorem Program.Keeps.invariant {program : Program Store Process Job Label Outcome}
    {guard : Session Store Process Job → Move Job Label → Prop}
    {idle : Store → Prop} {busy : Job → Store → Process → Prop}
    (keeps : program.Keeps guard idle busy)
    {first last : Session Store Process Job} {moves : List (Move Job Label)}
    (run : Run program.session guard first moves last) (initial : first.Holds idle busy) :
    last.Holds idle busy := by
  refine run.invariant (Session.Holds idle busy) ?_ initial
  rintro ⟨store, active⟩ move after held admitted taken
  rcases active with _ | ⟨job, process⟩
  · cases move with
    | start job =>
        obtain rfl := Option.some.inj taken
        exact keeps.start store job held admitted
    | step | finish | kill => cases taken
  · cases move with
    | start job => cases taken
    | step label =>
        obtain ⟨next, stepped, rfl⟩ := Option.map_eq_some_iff.mp taken
        exact keeps.step job store process label next held admitted stepped
    | finish =>
        simp only [Program.session] at taken
        split at taken
        · rename_i ended
          obtain ⟨outcome, returned⟩ := Option.isSome_iff_exists.mp ended
          obtain rfl := Option.some.inj taken
          exact keeps.finish job store process outcome held admitted returned
        · cases taken
    | kill =>
        obtain rfl := Option.some.inj taken
        exact keeps.kill job store process held admitted

end FastDownloader.Foundation
