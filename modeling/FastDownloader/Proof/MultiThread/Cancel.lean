/-
This file shows that a multi-thread call whose token is set sends no request any more and comes to its end.
-/

import FastDownloader.Proof.MultiThread.Faultless
import FastDownloader.Proof.State.Split
import FastDownloader.Proof.Worker.Cancel

namespace FastDownloader

open Foundation

/-- The number of ranges that a readable state file can give to a call. -/
def savedRanges {Text : Type} [SerdeJson Text] (disk : Disk Text) : Nat :=
  match load disk.dlstate with
  | .ok state => state.workers.length
  | .error _ => 0

/-- A call with this many threads has at most so many ranges, whatever resource it fetches. -/
def rangesBound {Text : Type} [SerdeJson Text] (threads : Nat) (disk : Disk Text) : Nat :=
  max (savedRanges disk) (max threads 1)

namespace Multi

variable {Text : Type} {io : FileIo} {job : Job} {disk : Disk Text} {multi : Multi} {act : Act}
  {next : Disk Text × Multi}

def ended (multi : Multi) : Bool :=
  match multi.phase with
  | .returned _ | .panicked => true
  | _ => false

/-- Handles are opened before they are used, and a call that has not loaded has nothing yet. -/
structure Equipped (multi : Multi) : Prop where
  opened : ∀ worker ∈ multi.workers, worker.Usable
  bare : multi.phase = .loading → multi.workers = [] ∧ multi.orphans = []

/-- The state task ticks as long as the workers run, and a token can be set again. -/
def Lingers (multi : Multi) : Act → Prop
  | .saver _ => multi.phase = .running
  | .cancel => True
  | _ => False

/-- The requests in flight. -/
def requests (multi : Multi) : Nat := (multi.workers.map fun worker => worker.requested.isSome.toNat).sum

section Ranges

variable [SerdeJson Text]

theorem splitWorkers_bound {fileSize threadCount minChunk : Nat} {ranges : List WorkerRange} (disk : Disk Text)
    (split : splitWorkers fileSize threadCount minChunk = some ranges) :
    ranges.length ≤ rangesBound threadCount disk := by
  rw [splitWorkers_length split]
  exact Nat.le_trans effectiveThreads_le_threads (Nat.le_max_right _ _)

theorem chooseRanges_bound {fileSize : Nat} {readable : Bool} {ranges : List WorkerRange}
    (chosen : chooseRanges job fileSize (if readable then disk.dlstate else none) = some ranges) :
    ranges.length ≤ rangesBound job.threadCount disk := by
  unfold chooseRanges at chosen
  split at chosen
  · rename_i state loaded
    split_ifs at chosen
    · obtain rfl := Option.some.inj chosen
      cases readable with
      | false => cases loaded
      | true =>
          rw [if_pos rfl] at loaded
          have saved : savedRanges disk = state.workers.length := by
            unfold savedRanges
            rw [loaded]
          exact saved ▸ Nat.le_max_left _ _
    · exact splitWorkers_bound disk chosen
  · exact splitWorkers_bound disk chosen

end Ranges

/-- The phases that are left once the token is set. -/
def phaseRank [SerdeJson Text] (job : Job) (disk : Disk Text) (multi : Multi) : Nat :=
  match multi.phase with
  | .loading => 4 * rangesBound job.threadCount disk + 29
  | .opening => 2 * multi.workers.length + 28
  | .sizing => 2 * multi.workers.length + 27
  | .settling => 2 * multi.workers.length + 26
  | .running => 2 * multi.workers.length + 25
  | .stopping => multi.saver.rank multi.workers.length + 15
  | .reopening => 3
  | .finalSync => 2
  | .deleting | .discarding _ => 1
  | .returned _ | .panicked => 0

/-- Only a background write can outlive its worker, so it is counted beside the workers. -/
def cancelRank [SerdeJson Text] (job : Job) (disk : Disk Text) (multi : Multi) : Nat :=
  (multi.workers.map Worker.cancelRank).sum + multi.orphans.length + multi.phaseRank job disk

variable [SerdeJson Text]

/-- The disk matters only to a call that has not loaded. -/
theorem phaseRank_disk (later : multi.phase ≠ .loading) (after : Disk Text) :
    multi.phaseRank job after = multi.phaseRank job disk := by
  unfold phaseRank
  cases at_phase : multi.phase with
  | loading => exact absurd at_phase later
  | _ => rfl

theorem begin_cancelRank (multi : Multi) (bare : multi.orphans = []) {ranges : List WorkerRange}
    (bounded : ranges.length ≤ rangesBound job.threadCount disk) :
    (multi.begin ranges).cancelRank job disk < 4 * rangesBound job.threadCount disk + 29 := by
  have light : ∀ rank ∈ (ranges.map Worker.spawn).map Worker.cancelRank, rank ≤ 2 := by
    intro rank member
    rw [List.map_map] at member
    obtain ⟨range, _, rfl⟩ := List.mem_map.mp member
    unfold Function.comp Worker.spawn Worker.cancelRank Worker.windDown
    dsimp only
    split_ifs <;> decide
  have total := List.sum_le_card_nsmul _ 2 light
  simp only [List.length_map, nsmul_eq_mul, Nat.cast_id] at total
  simp only [cancelRank, phaseRank, Multi.begin, bare, List.length_nil, List.length_map]
  omega

/-- What one step of a cancelled call does. -/
structure Winds (job : Job) (disk : Disk Text) (multi : Multi) (act : Act) (next : Disk Text × Multi) : Prop where
  falls : next.2.cancelRank job next.1 < multi.cancelRank job disk ∨
    (multi.Lingers act ∧ next.2.cancelRank job next.1 ≤ multi.cancelRank job disk)
  silent : next.2.requests ≤ multi.requests
  kept : multi.cancelled = true → next.2.cancelled = true

/-- A new phase leaves the workers and the dropped writes alone. -/
theorem Winds.phase {phase : Phase} {after : Disk Text} {event : MainEvent}
    (falls : ({ multi with phase := phase } : Multi).phaseRank job after < multi.phaseRank job disk) :
    Winds job disk multi (.main event) (after, { multi with phase := phase }) where
  falls := Or.inl (Nat.add_lt_add_left falls _)
  silent := Nat.le_refl _
  kept := id

/-- Each step of the main task is one of the phases that are left. -/
theorem main_winds {event : MainEvent} (equipped : multi.Equipped)
    (taken : mainStep job disk multi event = some next) : Winds job disk multi (.main event) next := by
  by_cases at_phase : multi.phase = .loading
  · obtain ⟨workers, orphans⟩ := equipped.bare at_phase
    obtain ⟨same, readable, rfl, ⟨_, ended⟩ | ⟨_, ended⟩ | ⟨ranges, chosen, ended⟩⟩ := loadStep_cases at_phase taken
    all_goals
      obtain ⟨after, moved⟩ := next
      dsimp only at same ended
      subst same ended
    · exact .phase (by simp only [phaseRank, at_phase]; omega)
    · exact .phase (by simp only [phaseRank, at_phase]; omega)
    · have light : (multi.begin ranges).cancelRank job _ < _ :=
        begin_cancelRank multi orphans (chooseRanges_bound chosen)
      refine ⟨Or.inl ?_, ?_, id⟩
      · simp only [cancelRank, phaseRank, at_phase, workers, orphans] at light ⊢
        simpa using light
      · have none_ : (multi.begin ranges).requests = 0 := by
          refine List.sum_eq_zero fun count member => ?_
          obtain ⟨worker, spawned, rfl⟩ := List.mem_map.mp member
          obtain ⟨range, _, rfl⟩ := List.mem_map.mp spawned
          unfold Worker.spawn Worker.requested
          dsimp only
          split_ifs <;> rfl
        rw [none_]
        exact Nat.zero_le _
  · obtain ⟨phase, same, move⟩ := mainStep_move at_phase taken
    obtain ⟨after, moved⟩ := next
    dsimp only at same move
    subst same
    refine .phase ?_
    cases move with
    | created at_phase | notCreated at_phase | resized at_phase | notResized at_phase | settled ok at_phase
    | discarded ok error at_phase | reopened at_phase | notReopened at_phase | finalSync ok at_phase
    | deleted ok at_phase =>
        simp only [phaseRank, at_phase]
        omega
    | join at_phase finished =>
        have bounded := Saver.rank_le multi.workers.length multi.saver
        simp only [phaseRank, at_phase]
        omega
    | conclude at_phase saved =>
        have low : ({ multi with phase := multi.verdict job } : Multi).phaseRank job disk ≤ 3 := by
          unfold phaseRank
          dsimp only
          rcases verdict_cases job multi with ⟨error, same, _⟩ | same | ⟨same, _⟩ <;> simp [same]
        have high : 15 ≤ multi.phaseRank job disk := by
          simp only [phaseRank, at_phase]
          omega
        omega

/-- A new worker in the place of an old one. -/
theorem Winds.replace {index : Nat} {worker moved : Worker} {after : Disk Text}
    {result : Multi} (present : multi.workers[index]? = some worker)
    (workers : result.workers = multi.workers.set index moved) (later : multi.phase ≠ .loading)
    (same : result.phase = multi.phase ∧ result.saver = multi.saver ∧ result.cancelled = multi.cancelled)
    (lower : moved.cancelRank + result.orphans.length < worker.cancelRank + multi.orphans.length)
    (silent : moved.requested.isSome.toNat ≤ worker.requested.isSome.toNat) :
    Winds job disk multi act (after, result) where
  falls := by
    have total := sum_map_set Worker.cancelRank moved present
    have phases : result.phaseRank job after = multi.phaseRank job disk := by
      rw [← phaseRank_disk later after]
      unfold phaseRank
      rw [same.1, same.2.1, workers, List.length_set]
    refine Or.inl ?_
    simp only [cancelRank, phases, workers]
    omega
  silent := by
    have total := sum_map_set (fun worker => worker.requested.isSome.toNat) moved present
    simp only [requests, workers]
    omega
  kept := fun cancelled => same.2.2.trans cancelled

/-- A call with a worker has loaded. -/
theorem Equipped.later (equipped : multi.Equipped) {index : Nat} {worker : Worker}
    (present : multi.workers[index]? = some worker) : multi.phase ≠ .loading := by
  intro at_phase
  rw [(equipped.bare at_phase).1] at present
  cases present

/-- A background write of a live handle ends. -/
theorem landStep_winds (equipped : multi.Equipped) {index : Nat} {kept : Option Nat}
    (taken : landStep disk multi index kept = some next) : Winds job disk multi act next := by
  obtain ⟨worker, offset, bytes, present, carried⟩ := landStep_busy taken
  have heavy : worker.handle.flights = 1 := by rw [carried]; rfl
  have lighter : ∀ handle : Handle, handle.flights = 0 →
      ({ worker with handle := handle } : Worker).cancelRank < worker.cancelRank := by
    intro handle light
    simp only [Worker.cancelRank, Worker.windDown, heavy, light]
    omega
  unfold landStep at taken
  rw [present] at taken
  dsimp only at taken
  rw [carried] at taken
  cases kept with
  | none =>
      cases taken
      exact .replace present rfl (equipped.later present) ⟨rfl, rfl, rfl⟩
        (Nat.add_lt_add_right (lighter _ rfl) _) (Nat.le_refl _)
  | some kept =>
      cases taken
      exact .replace present rfl (equipped.later present) ⟨rfl, rfl, rfl⟩
        (Nat.add_lt_add_right (lighter _ rfl) _) (Nat.le_refl _)

/-- The background write of a dropped handle ends. -/
theorem orphanStep_winds (equipped : multi.Equipped) {index : Nat} {kept : Option Nat}
    (taken : orphanStep disk multi index kept = some next) : Winds job disk multi act next := by
  obtain ⟨offset, bytes, present⟩ := orphanStep_present taken
  obtain ⟨inside, _⟩ := List.getElem?_eq_some_iff.mp present
  have later : multi.phase ≠ .loading := by
    intro at_phase
    rw [(equipped.bare at_phase).2] at present
    cases present
  have shorter : (multi.orphans.eraseIdx index).length < multi.orphans.length := by
    rw [List.length_eraseIdx_of_lt inside]
    omega
  have falls : ∀ (after : Disk Text) (lost : List (Nat × List UInt8)),
      ({ multi with orphans := multi.orphans.eraseIdx index, lost := lost } : Multi).cancelRank job after <
        multi.cancelRank job disk := by
    intro after lost
    have phases : ({ multi with orphans := multi.orphans.eraseIdx index, lost := lost } : Multi).phaseRank job after =
        multi.phaseRank job disk := phaseRank_disk later after
    simp only [cancelRank, phases]
    omega
  unfold orphanStep at taken
  rw [present] at taken
  cases kept with
  | none =>
      cases taken
      exact ⟨Or.inl (falls _ _), Nat.le_refl _, id⟩
  | some kept =>
      cases taken
      exact ⟨Or.inl (falls _ _), Nat.le_refl _, id⟩

/-- Each step of a cancelled call brings it nearer to its end, sends no request, and keeps the token set. -/
theorem step_winds (equipped : multi.Equipped) (cancelled : multi.cancelled = true)
    (taken : Multi.step io job (disk, multi) act = some next) : Winds job disk multi act next := by
  cases act with
  | cancel =>
      cases taken
      exact ⟨Or.inr ⟨trivial, Nat.le_refl _⟩, Nat.le_refl _, fun _ => rfl⟩
  | main event => exact main_winds equipped taken
  | worker index event =>
      simp only [step, workerStep] at taken
      split at taken
      · rename_i worker running present
        obtain ⟨⟨after, effect⟩, stepped, rfl⟩ := Option.map_eq_some_iff.mp taken
        rw [cancelled] at stepped
        have lower := Worker.step_cancelRank stepped
        have silent : after.requested.isSome.toNat ≤ worker.requested.isSome.toNat := by
          rw [Worker.step_silent stepped]
          exact Nat.zero_le _
        have later := equipped.later present
        cases effect with
        | none | write offset bytes | add bytes =>
            exact .replace present rfl later ⟨rfl, rfl, rfl⟩ (Nat.add_lt_add_right lower _) silent
        | orphan offset bytes =>
            refine .replace present rfl later ⟨rfl, rfl, rfl⟩ ?_ silent
            simp only [Effect.orphans] at lower
            simp only [List.length_cons]
            omega
      · cases taken
  | saver event =>
      simp only [step, saverStep] at taken
      split at taken
      · rename_i running
        obtain ⟨⟨saver, effect⟩, _, rfl⟩ := Option.map_eq_some_iff.mp taken
        refine ⟨Or.inr ⟨running, Nat.le_of_eq ?_⟩, Nat.le_refl _, id⟩
        simp only [cancelRank, phaseRank, running]
      · rename_i stopping
        obtain ⟨⟨saver, effect⟩, stepped, rfl⟩ := Option.map_eq_some_iff.mp taken
        have falls := (Saver.step_move stepped).falls
        refine ⟨Or.inl ?_, Nat.le_refl _, id⟩
        simp only [cancelRank, phaseRank, stopping]
        omega
      · cases taken
  | land index => exact landStep_winds equipped taken
  | lose index kept => exact landStep_winds equipped taken
  | landOrphan index => exact orphanStep_winds equipped taken
  | loseOrphan index kept => exact orphanStep_winds equipped taken

/-- A step of the main task leaves the workers alone or spawns them. -/
theorem main_equipped {event : MainEvent} (equipped : multi.Equipped)
    (taken : mainStep job disk multi event = some next) : next.2.Equipped := by
  by_cases at_phase : multi.phase = .loading
  · obtain ⟨_, readable, rfl, ⟨_, ended⟩ | ⟨_, ended⟩ | ⟨ranges, _, ended⟩⟩ := loadStep_cases at_phase taken
    all_goals rw [ended]
    · exact ⟨equipped.opened, by rintro ⟨⟩⟩
    · exact ⟨equipped.opened, by rintro ⟨⟩⟩
    · refine ⟨fun worker member => ?_, by rintro ⟨⟩⟩
      obtain ⟨range, _, rfl⟩ := List.mem_map.mp member
      exact Worker.spawn_usable range
  · obtain ⟨phase, same, move⟩ := mainStep_move at_phase taken
    obtain ⟨after, moved⟩ := next
    dsimp only at same move
    subst same
    refine ⟨equipped.opened, fun loading => absurd loading ?_⟩
    cases move with
    | conclude => exact verdict_ne_loading job multi
    | _ => rintro ⟨⟩

/-- Every step keeps the handles and the bare load. -/
theorem Equipped.step (equipped : multi.Equipped)
    (taken : Multi.step io job (disk, multi) act = some next) : next.2.Equipped := by
  have moved : ∀ {index : Nat} {worker : Worker} {result : Multi} {after : Worker},
      multi.workers[index]? = some worker → after.Usable → result.workers = multi.workers.set index after →
      result.phase = multi.phase → result.Equipped := by
    intro index worker result after present opened workers phase
    refine ⟨workers ▸ forall_mem_set equipped.opened opened, fun loading => ?_⟩
    exact absurd (phase.symm.trans loading) (equipped.later present)
  cases act with
  | cancel =>
      cases taken
      exact ⟨equipped.opened, equipped.bare⟩
  | main event => exact main_equipped equipped taken
  | worker index event =>
      simp only [Multi.step, workerStep] at taken
      split at taken
      · rename_i worker running present
        obtain ⟨⟨after, effect⟩, stepped, rfl⟩ := Option.map_eq_some_iff.mp taken
        have opened := Worker.step_usable (equipped.opened worker (List.mem_of_getElem? present)) stepped
        cases effect <;> exact moved present opened rfl rfl
      · cases taken
  | saver event =>
      simp only [Multi.step, saverStep] at taken
      split at taken
      · obtain ⟨⟨saver, effect⟩, _, rfl⟩ := Option.map_eq_some_iff.mp taken
        exact ⟨equipped.opened, equipped.bare⟩
      · obtain ⟨⟨saver, effect⟩, _, rfl⟩ := Option.map_eq_some_iff.mp taken
        exact ⟨equipped.opened, equipped.bare⟩
      · cases taken
  | land index =>
      obtain ⟨worker, offset, bytes, present, carried⟩ := landStep_busy taken
      simp only [Multi.step, landStep, present, carried] at taken
      cases taken
      exact moved present (fun _ => by rintro ⟨⟩) rfl rfl
  | lose index kept =>
      obtain ⟨worker, offset, bytes, present, carried⟩ := landStep_busy taken
      simp only [Multi.step, landStep, present, carried] at taken
      cases taken
      exact moved present (fun _ => by rintro ⟨⟩) rfl rfl
  | landOrphan index =>
      obtain ⟨offset, bytes, present⟩ := orphanStep_present taken
      simp only [Multi.step, orphanStep, present] at taken
      cases taken
      refine ⟨equipped.opened, fun loading => ?_⟩
      rw [(equipped.bare loading).2] at present
      cases present
  | loseOrphan index kept =>
      obtain ⟨offset, bytes, present⟩ := orphanStep_present taken
      simp only [Multi.step, orphanStep, present] at taken
      cases taken
      refine ⟨equipped.opened, fun loading => ?_⟩
      rw [(equipped.bare loading).2] at present
      cases present

theorem start_equipped (job : Job) (cancelled : Bool) :
    ({ Multi.start job with cancelled := cancelled } : Multi).Equipped where
  opened _ member := by cases member
  bare _ := ⟨rfl, rfl⟩

/-- A cancelled call that has not ended can do something that brings it nearer to its end. -/
theorem Equipped.moves (equipped : multi.Equipped) (cancelled : multi.cancelled = true)
    (pending : multi.ended = false) :
    ∃ act, ¬ multi.Lingers act ∧ (Multi.step io job (disk, multi) act).isSome = true := by
  cases at_phase : multi.phase with
  | loading =>
      refine ⟨.main (.load true), by rintro ⟨⟩, ?_⟩
      simp only [Multi.step, mainStep, at_phase]
      split
      · rfl
      · split <;> rfl
  | opening | reopening => exact ⟨.main (.created true), by rintro ⟨⟩, by simp [Multi.step, mainStep, at_phase]⟩
  | sizing => exact ⟨.main (.resized true), by rintro ⟨⟩, by simp [Multi.step, mainStep, at_phase]⟩
  | settling | finalSync => exact ⟨.main (.synced true), by rintro ⟨⟩, by simp [Multi.step, mainStep, at_phase]⟩
  | deleting | discarding error =>
      exact ⟨.main (.deleted true), by rintro ⟨⟩, by simp [Multi.step, mainStep, at_phase]⟩
  | running =>
      by_cases finished : multi.workers.all Worker.finished = true
      · exact ⟨.main .join, by rintro ⟨⟩, by simp [Multi.step, mainStep, at_phase, finished]⟩
      · obtain ⟨index, worker, present, unfinished⟩ := exists_unfinished finished
        have opened := equipped.opened worker (List.mem_of_getElem? present)
        obtain ⟨event, enabled⟩ | ⟨offset, bytes, carried⟩ :
            (∃ event, (worker.step io job.cfg job.info.ifRangeValidator true event).isSome = true) ∨
              ∃ offset bytes, worker.handle = .busy offset bytes := opened.moves unfinished
        · refine ⟨.worker index event, by rintro ⟨⟩, ?_⟩
          simpa [Multi.step, workerStep, at_phase, present, cancelled] using enabled
        · exact ⟨.land index, by rintro ⟨⟩, by simp [Multi.step, landStep, present, carried]⟩
  | stopping =>
      by_cases ended : multi.saver.pc = .finished
      · exact ⟨.main .conclude, by rintro ⟨⟩, by simp [Multi.step, mainStep, at_phase, ended]⟩
      · obtain ⟨event, _, enabled⟩ := Saver.moves job multi.workers ended
        refine ⟨.saver event, by simp [Lingers, at_phase], ?_⟩
        simpa [Multi.step, saverStep, at_phase] using enabled
  | returned result | panicked => simp [Multi.ended, at_phase] at pending

end Multi

end FastDownloader
