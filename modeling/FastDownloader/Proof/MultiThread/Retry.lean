/-
This file proves that a call comes to its end whatever fails on the way, and that only a worker which has used up its
attempts keeps it from success.
-/

import FastDownloader.Proof.MultiThread.Cancel
import FastDownloader.Proof.MultiThread.Collect
import FastDownloader.Proof.Worker.Retry

namespace FastDownloader

open Foundation

/-- The failures that the worker in this place has met. -/
def Act.failsAt (index : Nat) : Act → Bool
  | .worker place event => place = index && event.failed
  | _ => false

def failures (index : Nat) (acts : List Act) : Nat := acts.countP (Act.failsAt index)

/-- The act is a failure of some worker. -/
def Act.failed : Act → Bool
  | .worker _ event => event.failed
  | _ => false

theorem failures_le (index : Nat) (acts : List Act) : failures index acts ≤ acts.countP Act.failed := by
  refine List.countP_mono_left fun act _ fails => ?_
  cases act with
  | worker place event => exact (Bool.and_eq_true_iff.mp fails).2
  | _ => cases fails

theorem failures_snoc (index : Nat) (acts : List Act) (act : Act) :
    failures index (acts ++ [act]) = failures index acts + (act.failsAt index).toNat := by
  exact countP_concat _ _ _

namespace Multi

/-- The data file can be opened, nobody cancels, and each server sends what it is asked for or fails. -/
def Retriable (content : List UInt8) (multi : Multi) : Act → Prop
  | .cancel => False
  | .main (.created ok) | .main (.resized ok) => ok = true
  | .worker index event => ∀ worker ∈ multi.workers[index]?, worker.Retriable content event
  | _ => True

/-- The call has failed only if a worker has used up its attempts. -/
def Lasts (cfg : DownloaderConfig) (multi : Multi) : Prop :=
  match multi.phase with
  | .opening | .sizing | .settling | .running | .stopping => True
  | .reopening | .finalSync | .deleting | .returned (.ok ()) => ∀ worker ∈ multi.workers, ¬ worker.Exhausted cfg
  | .returned (.error error) =>
      (∃ source, error = .retryExhausted cfg.budget source) ∧ ∃ worker ∈ multi.workers, worker.Exhausted cfg
  | .loading | .discarding _ | .panicked => False

/-- A call whose workers try again and again. -/
structure Enduring {Text : Type} (content : List UInt8) (job : Job) (disk : Disk Text) (multi : Multi) : Prop where
  tracked : Tracked (rightBytes (ByteOf content)) job disk multi
  equipped : multi.Equipped
  trying : ∀ worker ∈ multi.workers, worker.Trying job.cfg
  lasts : multi.Lasts job.cfg
  calm : multi.cancelled = false

/-- The attempts of the workers and the phases that are left. -/
def toil {Text : Type} [SerdeJson Text] (job : Job) (disk : Disk Text) (multi : Multi) : Nat :=
  (multi.workers.map (Worker.toil job.cfg)).sum + multi.phaseRank job disk

variable {Text : Type} {content : List UInt8} {job : Job} {disk after : Disk Text} {multi : Multi} {act : Act}
  {next : Disk Text × Multi}

/-- A worker that may be asked again gets right bytes. -/
theorem answered_of_retriable {worker : Worker} {event : WorkerEvent}
    (retriable : worker.Retriable content event) : worker.Answered (ByteOf content) event := by
  cases event with
  | reply answer =>
      cases answer with
      | none => trivial
      | some response =>
          intro pos asked status
          rcases retriable with failed | right
          · simp [WorkerEvent.failed, status] at failed
          · rw [(right pos asked).2]
            exact served_matches content pos worker.stop
  | _ => trivial

theorem answered_of_retriable_act (retriable : multi.Retriable content act) :
    multi.Answered (ByteOf content) act := by
  cases act with
  | worker index event => exact fun worker present => answered_of_retriable (retriable worker present)
  | _ => trivial

/-- The result of a worker that tries is a success or the end of its attempts. -/
theorem results_cases {cfg : DownloaderConfig}
    (ended : ∀ worker ∈ multi.workers, (worker.pc = .skipped ∨ worker.pc = .done (.ok ())) ∨ worker.Exhausted cfg) :
    ∀ joined ∈ multi.results, joined = .returned (.ok ()) ∨
      ∃ source, joined = .returned (.error (.retryExhausted cfg.budget source)) := by
  intro joined member
  obtain ⟨worker, present, returned⟩ := List.mem_filterMap.mp member
  rcases ended worker present with (skipped | fine) | ⟨source, at_pc⟩
  · simp [skipped] at returned
  · left
    simpa [fine] using returned.symm
  · right
    exact ⟨source, by simpa [at_pc] using returned.symm⟩

/-- One worker that has used up its attempts is enough for the call to fail. -/
theorem verdict_exhausted {cfg : DownloaderConfig}
    (ended : ∀ worker ∈ multi.workers, (worker.pc = .skipped ∨ worker.pc = .done (.ok ())) ∨ worker.Exhausted cfg)
    (one : ∃ worker ∈ multi.workers, worker.Exhausted cfg) :
    ∃ source, multi.verdict job = .returned (.error (.retryExhausted cfg.budget source)) := by
  have cases := results_cases ended
  obtain ⟨worker, member, source, at_pc⟩ := one
  have listed : .returned (.error (.retryExhausted cfg.budget source)) ∈ multi.results :=
    List.mem_filterMap.mpr ⟨worker, member, by rw [at_pc]⟩
  have calm : multi.results.any Joined.isCancelled = false := by
    refine List.any_eq_false.mpr fun joined present => ?_
    rcases cases joined present with rfl | ⟨other, rfl⟩ <;> simp [Joined.isCancelled, Error.isCancelled]
  obtain ⟨error, first⟩ : ∃ error, multi.results.findSome? Joined.ordinary = some error := by
    refine Option.isSome_iff_exists.mp (List.findSome?_isSome_iff.mpr ⟨_, listed, rfl⟩)
  obtain ⟨joined, present, ordinary⟩ := List.exists_of_findSome?_eq_some first
  rcases cases joined present with rfl | ⟨other, rfl⟩
  · cases ordinary
  · refine ⟨other, ?_⟩
    obtain rfl : .retryExhausted cfg.budget other = error := Option.some.inj ordinary
    unfold verdict concludeWith
    rw [collect_eq]
    dsimp only
    rw [calm, first]
    rfl

/-- Workers that have all got their ranges pass the final check. -/
theorem Enduring.verdict (enduring : Enduring content job disk multi) (at_phase : multi.phase = .stopping)
    (none : ¬ ∃ worker ∈ multi.workers, worker.Exhausted job.cfg) : multi.verdict job = .reopening := by
  have controlled := enduring.tracked.controlled
  have finished := controlled.joined (by rw [at_phase]; rfl)
  have all : List.Forall₂ Fulfilled (multi.workers.map Worker.range) multi.workers := by
    refine List.forall₂_map_left_iff.mpr (List.forall₂_same.mpr fun worker member => ?_)
    have ended := (enduring.trying worker member).ended (controlled.sound worker member) (finished worker member)
    obtain ⟨well, handed⟩ := ended.resolve_right fun exhausted => none ⟨worker, member, exhausted⟩
    exact ⟨well, rfl, rfl, handed⟩
  unfold Multi.verdict concludeWith
  rw [collect_fulfilled all]
  simp [controlled.counted all]

/-- The attempts of every worker agree with its failures so far. -/
def Tallied (cfg : DownloaderConfig) (past : List Act) (multi : Multi) : Prop :=
  ∀ (index : Nat) (worker : Worker), multi.workers[index]? = some worker → worker.Met cfg (failures index past)

/-- What a step does to an enduring call. -/
structure Endures [SerdeJson Text] (content : List UInt8) (job : Job) (disk : Disk Text) (multi : Multi) (act : Act)
    (next : Disk Text × Multi) : Prop where
  enduring : Enduring content job next.1 next.2
  falls : next.2.toil job next.1 < multi.toil job disk ∨ (multi.Idle act ∧ next.2.toil job next.1 ≤ multi.toil job disk)
  counted : ∀ past, multi.Tallied job.cfg past → next.2.Tallied job.cfg (past ++ [act])

/-- An act that leaves the workers alone counts no failure. -/
theorem Tallied.quiet {cfg : DownloaderConfig} {past : List Act} {result : Multi} (tallied : multi.Tallied cfg past)
    (workers : result.workers = multi.workers) (silent : ∀ index, act.failsAt index = false) :
    result.Tallied cfg (past ++ [act]) := by
  intro index worker present
  rw [failures_snoc, silent, Bool.toNat_false, Nat.add_zero]
  exact tallied index worker (workers ▸ present)

/-- A worker counts its own failures and no others. -/
theorem Tallied.set {cfg : DownloaderConfig} {past : List Act} {result : Multi} (tallied : multi.Tallied cfg past)
    {index : Nat} {worker moved : Worker} {event : WorkerEvent} (present : multi.workers[index]? = some worker)
    (workers : result.workers = multi.workers.set index moved)
    (met : worker.Met cfg (failures index past) → moved.Met cfg (failures index past + event.failed.toNat)) :
    result.Tallied cfg (past ++ [.worker index event]) := by
  intro place other found
  rw [workers] at found
  rw [failures_snoc]
  by_cases same : index = place
  · subst same
    have inside := (List.getElem?_eq_some_iff.mp present).1
    rw [List.getElem?_set_self inside] at found
    obtain rfl := Option.some.inj found
    have own : Act.failsAt index (.worker index event) = event.failed := by simp [Act.failsAt]
    rw [own]
    exact met (tallied index worker present)
  · rw [List.getElem?_set_ne same] at found
    have foreign : Act.failsAt place (.worker index event) = false := by simp [Act.failsAt, same]
    rw [foreign]
    exact tallied place other found

/-- A main step of an enduring call fails only for a worker that has used up its attempts. -/
theorem Enduring.lasts_main (enduring : Enduring content job disk multi) {event : MainEvent} {phase : Phase}
    (retriable : multi.Retriable content (.main event)) (move : MainMove job disk multi event after phase) :
    ({ multi with phase := phase } : Multi).Lasts job.cfg := by
  have lasts := enduring.lasts
  cases move with
  | created | resized | settled | join => trivial
  | notCreated | notResized | notReopened => cases retriable
  | conclude at_phase saved =>
      have controlled := enduring.tracked.controlled
      have finished := controlled.joined (by rw [at_phase]; rfl)
      by_cases one : ∃ worker ∈ multi.workers, worker.Exhausted job.cfg
      · have ended := fun worker member =>
          ((enduring.trying worker member).ended (controlled.sound worker member) (finished worker member)).imp_left
            And.left
        obtain ⟨source, failed⟩ : ∃ source, multi.verdict job = _ := verdict_exhausted ended one
        rw [failed]
        exact ⟨⟨source, rfl⟩, one⟩
      · rw [enduring.verdict at_phase one]
        exact fun worker member exhausted => one ⟨worker, member, exhausted⟩
  | discarded ok error at_phase => simp [Lasts, at_phase] at lasts
  | reopened at_phase | finalSync ok at_phase | deleted ok at_phase =>
      simp only [Lasts, at_phase] at lasts
      exact lasts

variable [SerdeJson Text]

/-- A main step goes on to the next phase. -/
theorem Enduring.main (enduring : Enduring content job disk multi) {event : MainEvent}
    (retriable : multi.Retriable content (.main event))
    (taken : Multi.step .through job (disk, multi) (.main event) = some next) :
    Endures content job disk multi (.main event) next := by
  have tracked := enduring.tracked.step (answered_of_retriable_act retriable) (Or.inl (rightBytes_tears _)) taken
  have equipped := enduring.equipped.step taken
  have winds : Winds job disk multi (.main event) next := main_winds enduring.equipped taken
  obtain ⟨phase, same, move⟩ := mainStep_move enduring.tracked.controlled.begun taken
  have lasts := enduring.lasts_main retriable move
  obtain ⟨file, moved⟩ := next
  dsimp only at same move tracked equipped
  subst same
  refine ⟨⟨tracked, equipped, enduring.trying, lasts, enduring.calm⟩, Or.inl ?_,
    fun past tallied => tallied.quiet rfl fun _ => rfl⟩
  have lower := winds.falls.resolve_right And.left
  simp only [cancelRank] at lower
  simp only [toil]
  omega

/-- A worker step counts its failures and brings the call nearer to its end. -/
theorem Enduring.worker (enduring : Enduring content job disk multi) (size : job.fileSize = content.length)
    {index : Nat} {event : WorkerEvent} (retriable : multi.Retriable content (.worker index event))
    (taken : Multi.step .through job (disk, multi) (.worker index event) = some next) :
    Endures content job disk multi (.worker index event) next := by
  have tracked := enduring.tracked.step (answered_of_retriable_act retriable) (Or.inl (rightBytes_tears _)) taken
  have equipped := enduring.equipped.step taken
  simp only [Multi.step, workerStep] at taken
  split at taken
  swap
  · cases taken
  rename_i worker running present
  obtain ⟨⟨moved, effect⟩, stepped, rfl⟩ := Option.map_eq_some_iff.mp taken
  rw [enduring.calm] at stepped
  have member := List.mem_of_getElem? present
  have inside : worker.stop ≤ content.length :=
    size ▸ (enduring.tracked.controlled.tiles.bounds worker member).2.2
  obtain ⟨trying, falls, counted⟩ := Worker.step_tries (enduring.tracked.controlled.sound worker member)
    (enduring.trying worker member) (fun _ => enduring.tracked.landed worker member) inside (retriable worker present)
    stepped
  have total := sum_map_set (Worker.toil job.cfg) moved present
  -- No effect of a worker changes the phase or the other workers.
  have settled : ∀ result : Disk Text × Multi, result.2.workers = multi.workers.set index moved →
      result.2.phase = multi.phase ∧ result.2.cancelled = multi.cancelled →
      Tracked (rightBytes (ByteOf content)) job result.1 result.2 → result.2.Equipped →
      Endures content job disk multi (.worker index event) result := by
    intro result workers same tracked equipped
    have phases : result.2.phaseRank job result.1 = multi.phaseRank job disk := by
      simp only [phaseRank, same.1, running, workers, List.length_set]
    refine ⟨⟨tracked, equipped, ?_, ?_, same.2.trans enduring.calm⟩, ?_, fun past tallied => ?_⟩
    · rw [workers]
      exact forall_mem_set enduring.trying trying
    · simp only [Lasts, same.1, running]
    · simp only [toil, phases, workers]
      rcases falls with lower | ⟨empty, level⟩
      · exact Or.inl (by omega)
      · exact Or.inr ⟨empty, by omega⟩
    · exact tallied.set present workers (counted _)
  cases effect <;> exact settled _ rfl ⟨rfl, rfl⟩ tracked equipped

/-- A step of the state task touches no worker. -/
theorem Enduring.saver (enduring : Enduring content job disk multi) {event : SaverEvent}
    (taken : Multi.step .through job (disk, multi) (.saver event) = some next) :
    Endures content job disk multi (.saver event) next := by
  have answered : multi.Answered (ByteOf content) (.saver event) := trivial
  have tracked := enduring.tracked.step answered (Or.inl (rightBytes_tears _)) taken
  have equipped := enduring.equipped.step taken
  have lasts := enduring.lasts
  simp only [Multi.step, saverStep] at taken
  split at taken
  · rename_i running
    obtain ⟨⟨saver, effect⟩, _, rfl⟩ := Option.map_eq_some_iff.mp taken
    refine ⟨⟨tracked, equipped, enduring.trying, ?_, enduring.calm⟩, Or.inr ⟨running, ?_⟩,
      fun past tallied => tallied.quiet rfl fun _ => rfl⟩
    · simp only [Lasts, running]
    · simp only [toil, phaseRank, running, Nat.le_refl]
  · rename_i stopping
    obtain ⟨⟨saver, effect⟩, stepped, rfl⟩ := Option.map_eq_some_iff.mp taken
    have falls := (Saver.step_move stepped).falls
    refine ⟨⟨tracked, equipped, enduring.trying, ?_, enduring.calm⟩, Or.inl ?_,
      fun past tallied => tallied.quiet rfl fun _ => rfl⟩
    · simp only [Lasts, stopping]
    · simp only [toil, phaseRank, stopping]
      omega
  · cases taken

/-- Each step that may be tried again keeps the call enduring, counts, and brings it nearer to its end. -/
theorem Enduring.step (enduring : Enduring content job disk multi) (size : job.fileSize = content.length)
    (retriable : multi.Retriable content act)
    (taken : Multi.step .through job (disk, multi) act = some next) : Endures content job disk multi act next := by
  cases act with
  | cancel => cases retriable
  | main event => exact enduring.main retriable taken
  | worker index event => exact enduring.worker size retriable taken
  | saver event => exact enduring.saver taken
  | land index | lose index kept =>
      obtain ⟨worker, offset, bytes, present, carried⟩ := landStep_busy taken
      exact absurd carried (enduring.tracked.not_carried present)
  | landOrphan index | loseOrphan index kept =>
      obtain ⟨offset, bytes, present⟩ := orphanStep_present taken
      exact absurd present enduring.tracked.not_dropped

/-- An enduring call that has not returned can go on. -/
theorem Enduring.moves (enduring : Enduring content job disk multi) (pending : multi.outcome = none) :
    ∃ act, multi.Retriable content act ∧ ¬ multi.Idle act ∧
      (Multi.step .through job (disk, multi) act).isSome = true := by
  have lasts := enduring.lasts
  cases at_phase : multi.phase with
  | opening | reopening => exact ⟨.main (.created true), rfl, by rintro ⟨⟩, by simp [Multi.step, mainStep, at_phase]⟩
  | sizing => exact ⟨.main (.resized true), rfl, by rintro ⟨⟩, by simp [Multi.step, mainStep, at_phase]⟩
  | settling | finalSync =>
      exact ⟨.main (.synced true), trivial, by rintro ⟨⟩, by simp [Multi.step, mainStep, at_phase]⟩
  | deleting => exact ⟨.main (.deleted true), trivial, by rintro ⟨⟩, by simp [Multi.step, mainStep, at_phase]⟩
  | running =>
      by_cases finished : multi.workers.all Worker.finished = true
      · exact ⟨.main .join, trivial, by rintro ⟨⟩, by simp [Multi.step, mainStep, at_phase, finished]⟩
      · obtain ⟨index, worker, present, unfinished⟩ := exists_unfinished finished
        have member := List.mem_of_getElem? present
        obtain ⟨event, retriable, busy, enabled⟩ : ∃ event, worker.Retriable content event ∧ event ≠ .chunk 0 ∧
            (worker.step .through job.cfg job.info.ifRangeValidator false event).isSome = true :=
          (enduring.trying worker member).moves unfinished (enduring.tracked.landed worker member)
        refine ⟨.worker index event, fun found same => ?_, busy, ?_⟩
        · obtain rfl := Option.some.inj (present.symm.trans same)
          exact retriable
        · simpa [Multi.step, workerStep, at_phase, present, enduring.calm] using enabled
  | stopping =>
      by_cases ended : multi.saver.pc = .finished
      · exact ⟨.main .conclude, trivial, by rintro ⟨⟩, by simp [Multi.step, mainStep, at_phase, ended]⟩
      · obtain ⟨event, _, enabled⟩ := Saver.moves job multi.workers ended
        refine ⟨.saver event, trivial, by simp [Idle, at_phase], ?_⟩
        simpa [Multi.step, saverStep, at_phase] using enabled
  | loading | discarding | panicked => simp [Lasts, at_phase] at lasts
  | returned result => simp [Multi.outcome, at_phase] at pending

omit [SerdeJson Text] in
/-- A fresh split and the ranges of a valid state cover the file. -/
theorem chosen_cover {ranges : List WorkerRange} {threadCount minChunk : Nat}
    (size : job.info.size = some content.length)
    (chosen : splitWorkers content.length threadCount minChunk = some ranges ∨
      ∃ state : DownloadState, state.validate = .ok () ∧ state.fileSize = content.length ∧
        state.workers = ranges ∧
        ∀ position, Named ranges position → content[position]? = some (disk.cell position).byte) :
    ExactCover job.fileSize ranges ∧ ranges ≠ [] ∧
      ∀ position, Named ranges position → content[position]? = some (disk.cell position).byte := by
  have fileSize : job.fileSize = content.length := by simp [Job.fileSize, size]
  rw [fileSize]
  rcases chosen with split | ⟨state, valid, length, rfl, right⟩
  · obtain ⟨cover, fresh⟩ := splitWorkers_cover split
    exact ⟨cover, splitWorkers_ne_nil split, fun position named => absurd named (not_named_of_fresh fresh position)⟩
  · obtain ⟨_, nonempty, cover⟩ := (validate_ok_iff state).mp valid
    exact ⟨length ▸ cover, nonempty, right⟩

omit [SerdeJson Text] in
/-- A call begins without a failure. -/
theorem begin_enduring {ranges : List WorkerRange} (cover : ExactCover job.fileSize ranges) (nonempty : ranges ≠ [])
    (correct : ∀ position, Named ranges position → content[position]? = some (disk.cell position).byte) :
    Enduring content job disk ((Multi.start job).begin ranges) where
  tracked := by
    refine begin_tracked cover nonempty rfl rfl (fun position _ named expected present => ?_)
      (fun _ _ _ => trivial)
    exact Option.some.inj ((correct position named).symm.trans present)
  equipped := by
    refine ⟨fun worker member => ?_, by rintro ⟨⟩⟩
    obtain ⟨range, _, rfl⟩ := List.mem_map.mp member
    exact Worker.spawn_usable range
  trying := by
    intro worker member
    obtain ⟨range, _, rfl⟩ := List.mem_map.mp member
    exact Worker.spawn_trying job.cfg range
  lasts := trivial
  calm := rfl

omit [SerdeJson Text] in
theorem begin_tallied (cfg : DownloaderConfig) (ranges : List WorkerRange) :
    (multi.begin ranges).Tallied cfg [] := by
  intro index worker present
  obtain ⟨range, _, rfl⟩ := List.mem_map.mp (List.mem_of_getElem? present)
  exact Worker.spawn_met cfg range

omit [SerdeJson Text] in
/-- A call that has returned has succeeded exactly when every worker had an attempt left. -/
theorem Enduring.result_iff (enduring : Enduring content job disk multi) {acts : List Act}
    (tallied : multi.Tallied job.cfg acts) {result : Except Error Unit} (returned : multi.phase = .returned result) :
    (result = .ok () ↔ ∀ index < multi.workers.length, failures index acts < job.cfg.budget) ∧
      ∀ error, result = .error error → ∃ source, error = .retryExhausted job.cfg.budget source := by
  have lasts := enduring.lasts
  simp only [Lasts, returned] at lasts
  cases result with
  | ok =>
      refine ⟨iff_of_true rfl fun index inside => ?_, by rintro _ ⟨⟩⟩
      have met := tallied index _ (List.getElem?_eq_getElem inside)
      have spared := lasts _ (List.getElem_mem inside)
      exact Nat.lt_of_le_of_ne met.bounded fun all => spared (met.exhausted.mpr all)
  | error error =>
      obtain ⟨⟨source, rfl⟩, worker, member, exhausted⟩ := lasts
      refine ⟨iff_of_false (by rintro ⟨⟩) fun fewer => ?_, by rintro _ ⟨⟩; exact ⟨source, rfl⟩⟩
      obtain ⟨index, present⟩ := List.getElem?_of_mem member
      have spent := (tallied index worker present).exhausted.mp exhausted
      exact Nat.ne_of_lt (fewer index (List.getElem?_eq_some_iff.mp present).1) spent

/-- A worker step moves one worker. -/
theorem worker_taken {io : FileIo} {index : Nat} {event : WorkerEvent}
    (taken : Multi.step io job (disk, multi) (.worker index event) = some next) :
    multi.phase = .running ∧ ∃ worker moved effect, multi.workers[index]? = some worker ∧
      worker.step io job.cfg job.info.ifRangeValidator multi.cancelled event = some (moved, effect) ∧
      next.2.workers = multi.workers.set index moved := by
  simp only [Multi.step, workerStep] at taken
  split at taken
  · rename_i worker running present
    obtain ⟨⟨moved, effect⟩, stepped, rfl⟩ := Option.map_eq_some_iff.mp taken
    exact ⟨running, worker, moved, effect, present, stepped, by cases effect <;> rfl⟩
  · cases taken

omit [SerdeJson Text] in
/-- A call that endures, with what its workers have met. -/
structure Worked (content : List UInt8) (job : Job) (past : List Act) (disk : Disk Text) (multi : Multi) : Prop where
  enduring : Enduring content job disk multi
  tallied : multi.Tallied job.cfg past
  beyond : ∀ index, multi.workers.length ≤ index → failures index past = 0

theorem Worked.step {past : List Act} (worked : Worked content job past disk multi)
    (size : job.fileSize = content.length) (retriable : multi.Retriable content act)
    (taken : Multi.step .through job (disk, multi) act = some next) :
    Worked content job (past ++ [act]) next.1 next.2 where
  enduring := (worked.enduring.step size retriable taken).enduring
  tallied := (worked.enduring.step size retriable taken).counted past worked.tallied
  beyond := by
    have controlled := worked.enduring.tracked.controlled
    have grown := (controlled.step_change (answered_of_retriable_act retriable) taken).grows controlled
    intro index outside
    rw [← grown.length_eq] at outside
    rw [failures_snoc, worked.beyond index outside, Nat.zero_add]
    cases act with
    | worker place event =>
        obtain ⟨-, _, _, _, present, -⟩ := worker_taken taken
        have inside := (List.getElem?_eq_some_iff.mp present).1
        have foreign : Act.failsAt index (.worker place event) = false := by
          simp [Act.failsAt, show place ≠ index by omega]
        rw [foreign, Bool.toNat_false]
    | _ => rfl

omit [SerdeJson Text] in
/-- A call that has returned has the content, or a worker has used up its attempts. -/
theorem Worked.result {past : List Act} (worked : Worked content job past disk multi)
    (size : job.fileSize = content.length) {result : Except Error Unit} (returned : multi.outcome = some result) :
    (result = .ok () ∧ (∀ index, failures index past < job.cfg.budget) ∧ disk.contents = some content) ∨
      ∃ source index, result = .error (.retryExhausted job.cfg.budget source) ∧
        job.cfg.budget ≤ failures index past := by
  have ended := (outcome_iff _ _).mp returned
  obtain ⟨enough, errors⟩ := worked.enduring.result_iff worked.tallied ended
  have positive : 0 < job.cfg.budget := Nat.le_max_left 1 _
  cases result with
  | ok =>
      refine Or.inl ⟨rfl, fun index => ?_, worked.enduring.tracked.contents size ended⟩
      by_cases inside : index < multi.workers.length
      · exact enough.mp rfl index inside
      · rw [worked.beyond index (Nat.not_lt.mp inside)]
        exact positive
  | error error =>
      obtain ⟨source, rfl⟩ := errors error rfl
      by_contra fewer
      have fine : Except.error (.retryExhausted job.cfg.budget source) = (.ok () : Except Error Unit) :=
        enough.mpr fun index _ => Nat.lt_of_not_le fun spent => fewer (Or.inr ⟨source, index, rfl, spent⟩)
      cases fine

omit [SerdeJson Text] in
theorem begin_worked {ranges : List WorkerRange} (enduring : Enduring content job disk ((Multi.start job).begin ranges)) :
    Worked content job [] disk ((Multi.start job).begin ranges) :=
  ⟨enduring, begin_tallied _ _, fun _ _ => rfl⟩

omit [SerdeJson Text] in
/-- A main step counts no failure. -/
theorem Worked.main {past : List Act} (worked : Worked content job past disk multi) (event : MainEvent) :
    Worked content job (past ++ [.main event]) disk multi where
  enduring := worked.enduring
  tallied := worked.tallied.quiet rfl fun _ => rfl
  beyond index outside := by
    rw [failures_snoc, worked.beyond index outside]
    rfl

/-- Whatever fails on the way, a call comes to its end. It returns the whole content exactly when no worker has met as
many failures as it has attempts, and it never returns another error. -/
theorem endures {ranges : List WorkerRange} {threadCount minChunk : Nat} (size : job.info.size = some content.length)
    (chosen : splitWorkers content.length threadCount minChunk = some ranges ∨
      ∃ state : DownloadState, state.validate = .ok () ∧ state.fileSize = content.length ∧
        state.workers = ranges ∧
        ∀ position, Named ranges position → content[position]? = some (disk.cell position).byte) :
    Settles (Multi.step .through job) (fun state act => state.2.Retriable content act)
        (fun state act => state.2.Idle act) (fun state => state.2.outcome.isSome = true)
        (disk, (Multi.start job).begin ranges) ∧
      ∀ acts last result, Run (Multi.step .through job) (fun state act => state.2.Retriable content act)
          (disk, (Multi.start job).begin ranges) acts last → last.2.outcome = some result →
        (result = .ok () ↔ ∀ index < ranges.length, failures index acts < job.cfg.budget) ∧
        (result = .ok () → last.1.contents = some content) ∧
        ∀ error, result = .error error → ∃ source, error = .retryExhausted job.cfg.budget source := by
  have fileSize : job.fileSize = content.length := by simp [Job.fileSize, size]
  obtain ⟨cover, nonempty, correct⟩ := chosen_cover size chosen
  have begun : Enduring content job disk ((Multi.start job).begin ranges) := begin_enduring cover nonempty correct
  constructor
  · -- The rank falls at each step, and nothing but the end stops the call.
    have ranked : Ranked (Multi.step .through job)
        (fun (state : Disk Text × Multi) act => state.2.Retriable content act) (fun state act => state.2.Idle act)
        (fun state => state.2.outcome.isSome = true)
        (fun state => Enduring content job state.1 state.2) (fun state => state.2.toil job state.1) := by
      refine ⟨?_, ?_, fun state enduring pending => enduring.moves (Option.not_isSome_iff_eq_none.mp pending)⟩
      · exact fun before act after enduring retriable taken =>
          (Enduring.step enduring fileSize retriable taken).enduring
      · exact fun before act after enduring retriable taken =>
          (Enduring.step enduring fileSize retriable taken).falls
    exact ranked.settles begun
  · intro acts last result run returned
    have history : Worked content job acts last.1 last.2 ∧ last.2.workers.length = ranges.length := by
      refine run.history (fun past (state : Disk Text × Multi) => Worked content job past state.1 state.2 ∧
        state.2.workers.length = ranges.length) ?_ ⟨begin_worked begun, List.length_map ..⟩
      rintro past before act after ⟨worked, length⟩ retriable taken
      have controlled := worked.enduring.tracked.controlled
      have grown := (controlled.step_change (answered_of_retriable_act retriable) taken).grows controlled
      exact ⟨worked.step fileSize retriable taken, grown.length_eq.symm.trans length⟩
    obtain ⟨worked, length⟩ := history
    have ended := (outcome_iff _ _).mp returned
    obtain ⟨exact_, errors⟩ := worked.enduring.result_iff worked.tallied ended
    rw [length] at exact_
    refine ⟨exact_, ?_, errors⟩
    rintro rfl
    exact worked.enduring.tracked.contents fileSize ended

instance (content : List UInt8) (worker : Worker) (event : WorkerEvent) :
    Decidable (worker.Retriable content event) := by
  induction event using WorkerEvent.casesOn with
  | reply answer =>
      induction answer using Option.casesOn with
      | none => exact .isTrue trivial
      | some response => exact inferInstanceAs (Decidable (_ ∨ ∀ pos ∈ worker.requested, _))
  | chunk size => exact inferInstanceAs (Decidable (size ≤ worker.unread))
  | _ => exact .isTrue trivial

instance (content : List UInt8) (multi : Multi) (act : Act) : Decidable (multi.Retriable content act) := by
  induction act using Act.casesOn with
  | cancel => exact .isFalse not_false
  | main event =>
      induction event using MainEvent.casesOn with
      | created ok | resized ok => exact inferInstanceAs (Decidable (ok = true))
      | _ => exact .isTrue trivial
  | worker index event =>
      exact inferInstanceAs (Decidable (∀ worker ∈ multi.workers[index]?, worker.Retriable content event))
  | _ => exact .isTrue trivial

/-- A request is lost, the next one is refused, and the last flush fails. -/
def stubbornActs : List Act :=
  [.main (.created true), .main (.resized true), .main (.synced false), .worker 0 .check, .worker 0 (.reply none),
    .worker 0 .slept, .worker 0 .check, .worker 0 (.reply (some ⟨503, none, none, []⟩)), .worker 0 .slept,
    .worker 0 .check, .worker 0 (.reply (some ⟨206, none, none, [7]⟩)), .worker 0 (.opened true), .worker 0 (.chunk 1),
    .worker 0 .wrote, .worker 0 .store, .worker 0 .count, .worker 0 (.flushed false), .worker 0 .slept,
    .worker 0 .check, .main .join, .saver (.opened true), .saver .halt, .saver .load, .saver .load,
    .saver (.saved true), .main .conclude, .main (.created true), .main (.synced true), .main (.deleted true)]

def stubbornRun : Option (Disk DownloadState × Multi) :=
  replay (Multi.step .through oneByte) (⟨none, none⟩, (Multi.start oneByte).begin [⟨0, 0, 1⟩]) stubbornActs

theorem endures_stubborn :
    failures 0 stubbornActs = 3 ∧ (∀ index < 1, failures index stubbornActs < oneByte.cfg.budget) ∧
      (stubbornRun.get rfl).1.contents = some [7] := by
  have split : splitWorkers [(7 : UInt8)].length 2 1 = some [⟨0, 0, 1⟩] := rfl
  have run : Run (Multi.step .through oneByte) (fun state act => state.2.Retriable [7] act)
      (⟨none, none⟩, (Multi.start oneByte).begin [⟨0, 0, 1⟩]) stubbornActs (stubbornRun.get rfl) :=
    run_of_replay (by decide +kernel) (Option.some_get _).symm
  obtain ⟨enough, contents, _⟩ := (endures rfl (Or.inl split)).2 stubbornActs _ (.ok ()) run rfl
  exact ⟨rfl, enough.mp rfl, contents rfl⟩

end Multi

end FastDownloader
