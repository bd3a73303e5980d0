/-
This file proves when the resume state is gone after a worker has seen another version of the resource.
-/

import FastDownloader.Proof.MultiThread.Assembly

namespace FastDownloader

open Foundation

/-- The error that can become `first_error`. A failed join counts as a disk error. -/
def Joined.ordinary : Joined → Option Error
  | .returned (.ok ()) => none
  | .returned (.error error) => if error.isCancelled then none else some error
  | .joinError => some .io

def Joined.isCancelled : Joined → Bool
  | .returned (.error error) => error.isCancelled
  | _ => false

def Joined.failed : Joined → Bool
  | .returned (.ok ()) => false
  | _ => true

/-- The loop keeps its first error and its flag, and otherwise takes them from the results. -/
theorem foldl_collectOne (results : List Joined) (first : Option Error) (flag : Bool) :
    results.foldl collectOne (first, flag) =
      (first.or (results.findSome? Joined.ordinary), flag || results.any Joined.isCancelled) := by
  induction results generalizing first flag with
  | nil => simp
  | cons joined results ih =>
      rw [List.foldl_cons, List.findSome?_cons, List.any_cons]
      cases joined with
      | joinError =>
          change results.foldl collectOne (first.or (some .io), flag) = _
          rw [ih]
          cases first <;> rfl
      | returned result =>
          cases result with
          | ok =>
              change results.foldl collectOne (first, flag) = _
              rw [ih]
              rfl
          | error error =>
              simp only [collectOne, Joined.ordinary, Joined.isCancelled]
              cases error.isCancelled with
              | true => simp [ih]
              | false => cases first <;> simp [ih]

theorem collect_eq (results : List Joined) :
    collect results = (results.findSome? Joined.ordinary, results.any Joined.isCancelled) := by
  unfold collect
  rw [foldl_collectOne, Option.none_or, Bool.false_or]

/-- No worker was cancelled, and the first worker that failed saw another version of the resource. -/
def ChangedFirst (results : List Joined) : Prop :=
  (∀ joined ∈ results, joined ≠ .returned (.error .cancelled)) ∧
    results.find? Joined.failed = some (.returned (.error .resourceChanged))

theorem Joined.isCancelled_iff (joined : Joined) :
    joined.isCancelled = true ↔ joined = .returned (.error .cancelled) := by
  rcases joined with (error | ⟨⟩) | _
  · cases error <;> simp [isCancelled, Error.isCancelled]
  · simp [isCancelled]
  · simp [isCancelled]

/-- Without a cancelled worker the first ordinary error is that of the first failed worker. -/
theorem findSome?_ordinary {results : List Joined}
    (running : ∀ joined ∈ results, joined ≠ .returned (.error .cancelled)) :
    results.findSome? Joined.ordinary = (results.find? Joined.failed).bind Joined.ordinary := by
  induction results with
  | nil => rfl
  | cons joined results ih =>
      have rest := ih fun other member => running other (List.mem_cons_of_mem _ member)
      have here := running joined List.mem_cons_self
      rw [List.findSome?_cons, List.find?_cons]
      rcases joined with (error | ⟨⟩) | _
      · have ordinary : error.isCancelled = false := by
          cases error <;> first | rfl | exact absurd rfl here
        simp [Joined.ordinary, Joined.failed, ordinary]
      · exact rest
      · rfl

/-- The decision of the call asks exactly for this mix of results. -/
theorem changedFirst_iff (results : List Joined) :
    ChangedFirst results ↔
      (collect results).2 = false ∧ (collect results).1 = some .resourceChanged := by
  rw [collect_eq]
  have flag : results.any Joined.isCancelled = false ↔
      ∀ joined ∈ results, joined ≠ .returned (.error .cancelled) := by
    rw [List.any_eq_false]
    exact forall₂_congr fun joined _ => not_congr joined.isCancelled_iff
  dsimp only
  rw [flag]
  refine and_congr_right fun running => ?_
  rw [findSome?_ordinary running]
  constructor
  · intro found
    rw [found]
    rfl
  · intro first
    obtain ⟨joined, found, error⟩ := Option.bind_eq_some_iff.mp first
    rw [found]
    rcases joined with (error | ⟨⟩) | _
    · simp only [Joined.ordinary] at error
      split at error
      · cases error
      · rw [Option.some.inj error]
    · cases error
    · cases error

namespace Multi

variable {Text : Type} [SerdeJson Text] {io : FileIo} {job : Job} {results : List Joined}
  {start disk after : Disk Text} {multi next : Multi} {act : Act}

/-- A result of a changed resource is not lost: the call is cancelled, drops the state, or returns another error. -/
theorem concludeWith_cases (downloaded : Nat) (changed : .returned (.error .resourceChanged) ∈ results) :
    (ChangedFirst results ∧ concludeWith job downloaded results = .discarding .resourceChanged) ∨
      (¬ ChangedFirst results ∧ ∃ error, concludeWith job downloaded results = .returned (.error error)) := by
  rw [changedFirst_iff]
  unfold concludeWith
  dsimp only
  cases flag : (collect results).2 with
  | true => exact Or.inr ⟨by simp, .cancelled, by simp⟩
  | false =>
      cases first : (collect results).1 with
      | none =>
          rw [collect_eq] at first
          exact absurd (List.findSome?_eq_none_iff.mp first _ changed) (by simp [Joined.ordinary, Error.isCancelled])
      | some error =>
          by_cases same : error = .resourceChanged
          · exact Or.inl ⟨by simp [same], by simp [same, Error.isResourceChanged]⟩
          · refine Or.inr ⟨by simp [same], error, ?_⟩
            have other : error.isResourceChanged = false := by
              rw [← Bool.not_eq_true, Error.isResourceChanged_iff]
              exact same
            simp [other]

/-- Once the workers have joined and the last checkpoint is written, only the main task can touch the state file. -/
theorem step_settled (phase : multi.phase ≠ .running) (saved : multi.saver.pc = .finished)
    (background : ∀ event, act ≠ .main event) (taken : step io job (disk, multi) act = some (after, next)) :
    after.dlstate = disk.dlstate ∧ next.phase = multi.phase ∧ next.saver = multi.saver := by
  cases act with
  | cancel =>
      obtain ⟨rfl, rfl⟩ := Prod.mk.inj (Option.some.inj taken)
      exact ⟨rfl, rfl, rfl⟩
  | main event => exact absurd rfl (background event)
  | worker index event =>
      simp only [step, workerStep] at taken
      split at taken
      · rename_i at_phase _
        exact absurd at_phase phase
      · cases taken
  | saver event =>
      have stays : ∀ stopping, multi.saver.step job multi.workers stopping event = none := by
        intro stopping
        unfold Saver.step
        simp [saved]
      simp only [step, saverStep, stays] at taken
      split at taken <;> cases taken
  | land index | lose index kept =>
      simp only [step, landStep] at taken
      split at taken
      · split at taken
        · obtain ⟨rfl, rfl⟩ := Prod.mk.inj (Option.some.inj taken)
          exact ⟨rfl, rfl, rfl⟩
        · obtain ⟨rfl, rfl⟩ := Prod.mk.inj (Option.some.inj taken)
          exact ⟨rfl, rfl, rfl⟩
        · cases taken
      · cases taken
  | landOrphan index | loseOrphan index kept =>
      simp only [step, orphanStep] at taken
      split at taken
      · obtain ⟨rfl, rfl⟩ := Prod.mk.inj (Option.some.inj taken)
        exact ⟨rfl, rfl, rfl⟩
      · obtain ⟨rfl, rfl⟩ := Prod.mk.inj (Option.some.inj taken)
        exact ⟨rfl, rfl, rfl⟩
      · cases taken

/-- The guard lets every deletion succeed. -/
def Deletes (_ : Disk Text × Multi) (act : Act) : Prop :=
  match act with
  | .main (.deleted ok) => ok = true
  | _ => True

instance (state : Disk Text × Multi) : ∀ act, Decidable (Deletes state act)
  | .main (.deleted ok) => inferInstanceAs (Decidable (ok = true))
  | .main (.load _) | .main (.created _) | .main (.resized _) | .main (.synced _) | .main .join | .main .conclude
  | .cancel | .worker _ _ | .saver _ | .land _ | .lose _ _ | .landOrphan _ | .loseOrphan _ _ => .isTrue trivial

/-- The phases between the last checkpoint and the return say what becomes of the state file. -/
def Concluding (start : Disk Text) (results : List Joined) (disk : Disk Text) (multi : Multi) : Prop :=
  match multi.phase with
  | .stopping => disk.dlstate = start.dlstate
  | .discarding _ => ChangedFirst results
  | .returned _ =>
      (ChangedFirst results ∧ disk.dlstate = none) ∨
        (¬ ChangedFirst results ∧ disk.dlstate = start.dlstate)
  | _ => False

/-- The main task decides by the collected results and then drops the state or returns. -/
theorem Concluding.main_step (concluding : Concluding start results disk multi)
    (saved : multi.saver.pc = .finished) (changed : .returned (.error .resourceChanged) ∈ results)
    {event : MainEvent} (deletes : Deletes (disk, multi) (.main event))
    (taken : joinedStep io job results (disk, multi) (.main event) = some (after, next)) :
    Concluding start results after next ∧ next.saver.pc = .finished := by
  unfold Concluding at concluding
  simp only [joinedStep, step, mainStep] at taken
  cases at_phase : multi.phase with
  | stopping =>
      cases event with
      | conclude =>
          simp only [at_phase, saved, if_true] at taken concluding
          obtain ⟨rfl, rfl⟩ := Prod.mk.inj (Option.some.inj taken)
          refine ⟨?_, saved⟩
          unfold Concluding
          have cases_ : (ChangedFirst results ∧ concludeWith job multi.downloaded results = .discarding .resourceChanged) ∨
              (¬ ChangedFirst results ∧ ∃ error, concludeWith job multi.downloaded results = .returned (.error error)) :=
            concludeWith_cases multi.downloaded changed
          rcases cases_ with ⟨first, decided⟩ | ⟨other, error, decided⟩
          · simp only [decided]
            exact first
          · simp only [decided]
            exact Or.inr ⟨other, concluding⟩
      | _ => simp [at_phase] at taken
  | discarding error =>
      cases event with
      | deleted ok =>
          simp only [at_phase] at taken concluding
          obtain ⟨rfl, rfl⟩ := Prod.mk.inj (Option.some.inj taken)
          obtain rfl : ok = true := deletes
          exact ⟨Or.inl ⟨concluding, rfl⟩, saved⟩
      | _ => simp [at_phase] at taken
  | returned result => simp [at_phase] at taken
  | _ => simp [at_phase] at concluding

/-- One step goes on from the last checkpoint towards the return. -/
theorem Concluding.step (concluding : Concluding start results disk multi)
    (saved : multi.saver.pc = .finished) (changed : .returned (.error .resourceChanged) ∈ results)
    (deletes : Deletes (disk, multi) act)
    (taken : joinedStep io job results (disk, multi) act = some (after, next)) :
    Concluding start results after next ∧ next.saver.pc = .finished := by
  by_cases main : ∃ event, act = .main event
  · obtain ⟨event, rfl⟩ := main
    exact concluding.main_step saved changed deletes taken
  · have background : ∀ event, act ≠ .main event := fun event same => main ⟨event, same⟩
    have stepped : Multi.step io job (disk, multi) act = some (after, next) := by
      rw [← taken]
      unfold joinedStep
      dsimp only
      split
      · exact absurd rfl (background _)
      · rfl
    unfold Concluding at concluding ⊢
    have phase : multi.phase ≠ .running := by
      intro running
      simp [running] at concluding
    obtain ⟨dlstate, same, saver⟩ := step_settled phase saved background stepped
    rw [same, dlstate, saver]
    exact ⟨concluding, saved⟩

/-- Whether a changed resource leaves no resume state depends on the mix of results: the call drops the state exactly
when no worker was cancelled and the first failed worker is one that saw the change. -/
theorem discarded_iff {acts : List Act} {last : Disk Text × Multi} {result : Except Error Unit}
    (joined : multi.phase = .stopping) (saved : multi.saver.pc = .finished)
    (changed : .returned (.error .resourceChanged) ∈ results)
    (run : Run (joinedStep io job results) Deletes (disk, multi) acts last)
    (returned : last.2.outcome = some result) :
    last.1.dlstate = none ↔ disk.dlstate = none ∨ ChangedFirst results := by
  have initial : Concluding disk results disk multi := by
    unfold Concluding
    rw [joined]
  obtain ⟨concluding, _⟩ := run.invariant
    (fun state => Concluding disk results state.1 state.2 ∧ state.2.saver.pc = .finished)
    (fun before act after held deletes taken => held.1.step held.2 changed deletes taken) ⟨initial, saved⟩
  unfold Concluding at concluding
  rw [(outcome_iff _ _).mp returned] at concluding
  rcases concluding with ⟨first, gone⟩ | ⟨other, kept⟩
  · exact iff_of_true gone (Or.inr first)
  · rw [kept]
    exact ⟨Or.inl, fun either => either.resolve_right other⟩

/-- Two workers fetch one byte each and have one attempt. -/
def twoWorkers : Job where
  info := ⟨"u", some 2, fits_two, true, some "a", none, none⟩
  threadCount := 2
  cfg := { minChunkSize := 1, maxRetries := 1 }

/-- The second worker is told that the resource has changed. The first one gets the other answer. -/
def changedActs (answer : Option Response) : List Act :=
  [.main (.load true), .main (.created true), .main (.resized true), .main (.synced true), .saver (.opened true),
    .worker 0 .check, .worker 0 (.reply answer), .worker 1 .check, .worker 1 (.reply (some ⟨200, none, none, []⟩)),
    .main .join, .saver .halt, .saver .load, .saver .load, .saver .load, .saver (.saved true)]

def changedRun (acts : List Act) : Option (Disk DownloadState × Multi) :=
  replay (Multi.step .through twoWorkers) (⟨none, none⟩, Multi.start twoWorkers) acts

def bothChanged : List Joined := [.returned (.error .resourceChanged), .returned (.error .resourceChanged)]

/-- The collected results of two changed workers, after a last checkpoint of both. -/
def discardedRun : Option (Disk DownloadState × Multi) :=
  (changedRun (changedActs (some ⟨200, none, none, []⟩))).bind fun state =>
    replay (joinedStep .through twoWorkers bothChanged) state [.main .conclude, .main (.deleted true)]

/-- Both workers see the change, so the state file is dropped. -/
theorem discarded_iff_both : (discardedRun.get rfl).1.dlstate = none := by
  have run : Run (joinedStep .through twoWorkers bothChanged) Deletes
      ((changedRun (changedActs (some ⟨200, none, none, []⟩))).get rfl)
      [.main .conclude, .main (.deleted true)] (discardedRun.get rfl) :=
    run_of_replay (by decide +kernel) (Option.some_get _).symm
  exact (discarded_iff rfl rfl (by simp [bothChanged]) run rfl).mpr (Or.inr ⟨by simp [bothChanged], rfl⟩)

/-- The request of the first worker fails before the second one sees the change, so the state file stays. -/
theorem changed_state_left :
    ¬ ∀ (acts : List Act) (last : Disk DownloadState × Multi),
      Run (Multi.step .through twoWorkers) Deletes (⟨none, none⟩, Multi.start twoWorkers) acts last →
      last.2.outcome.isSome = true → .returned (.error .resourceChanged) ∈ last.2.results →
      last.1.dlstate = none := by
  intro gone
  have run : Run (Multi.step .through twoWorkers) Deletes (⟨none, none⟩, Multi.start twoWorkers)
      (changedActs none ++ [.main .conclude]) ((changedRun (changedActs none ++ [.main .conclude])).get rfl) :=
    run_of_replay (by decide +kernel) (Option.some_get _).symm
  exact nomatch gone _ _ run rfl (List.mem_cons_of_mem _ List.mem_cons_self)

end Multi

end FastDownloader
