/-
This file proves that no number of 64 bits wraps in the multi-thread path.
-/

import FastDownloader.Model.Wrapping
import FastDownloader.Proof.Download.Panics
import FastDownloader.Proof.State.Cover
import FastDownloader.Proof.State.Split
import FastDownloader.Proof.Worker.Move

namespace FastDownloader

open Foundation

namespace Worker

variable {io : FileIo} {cfg : DownloaderConfig} {ifRange : Option String} {cancelled : Bool} {worker next : Worker}
  {event : WorkerEvent} {effect : Effect}

/-- The bytes since the last flush lie below the local position. -/
def Counted (worker : Worker) : Prop :=
  match worker.pc with
  | .streaming segment | .writing segment _ | .storing segment _ | .counting segment _ | .flushing segment =>
      segment.bytesSinceFlush ≤ segment.pos
  | _ => True

theorem spawn_counted (range : WorkerRange) : (spawn range).Counted := by
  unfold Counted spawn
  split_ifs <;> trivial

theorem fail_counted (cfg : DownloaderConfig) (worker : Worker) (error : Error) : (worker.fail cfg error).Counted := by
  unfold fail
  dsimp only
  split_ifs <;> trivial

theorem release_counted (counted : worker.Counted) : worker.release.1.Counted := by
  unfold release
  split <;> exact counted

theorem afterFlush_counted {segment : Segment} (counted : segment.bytesSinceFlush ≤ segment.pos) :
    (worker.afterFlush segment).Counted := by
  unfold afterFlush
  split_ifs
  · trivial
  · exact counted

/-- Each step keeps the count below the position. -/
theorem Counted.step (counted : worker.Counted)
    (taken : worker.step io cfg ifRange cancelled event = some (next, effect)) : next.Counted := by
  have move := step_move taken
  unfold Counted at counted
  cases move with
  | checked =>
      unfold onHead
      split_ifs <;> trivial
  | answered pos response =>
      unfold onReply
      split_ifs <;> first | trivial | exact fail_counted cfg worker _
  | opened => exact Nat.zero_le _
  | chunk segment size at_pc =>
      rw [at_pc] at counted
      unfold onChunk
      dsimp only
      split_ifs <;> trivial
  | wrote segment bytes _ at_pc | passed segment bytes _ _ at_pc =>
      rw [at_pc] at counted
      exact Nat.add_le_add_right counted bytes.length
  | torn => exact release_counted (fail_counted cfg worker _)
  | stored segment written at_pc =>
      rw [at_pc] at counted
      exact counted
  | counted segment written at_pc =>
      rw [at_pc] at counted
      unfold onCount
      split_ifs
      · exact counted
      · exact afterFlush_counted counted
  | flushed => exact afterFlush_counted (Nat.zero_le _)
  | finished | gaveUp => exact release_counted trivial
  | refused _ error => exact fail_counted cfg worker error
  | broken _ error => exact release_counted (fail_counted cfg worker error)
  | ended | stopped | slept | interrupted => trivial

/-- This is the length of the chunk that the event delivers. -/
def chunkLen (worker : Worker) : WorkerEvent → Nat := fun event =>
  match worker.pc, event with
  | .streaming segment, .chunk size => (segment.body.take size).length
  | _, _ => 0

/-- A worker inside a file that can be resized computes nothing that wraps. -/
theorem Sound.no_wrap {right : Nat → UInt8 → Prop} (sound : worker.Sound right) (counted : worker.Counted)
    (inside : worker.stop < 2 ^ 63) (short : worker.chunkLen event < 2 ^ 63) (cancelled : Bool) :
    worker.wraps cancelled event = false := by
  have bounds := sound.current_le
  have aligned := sound.aligned
  unfold wraps
  unfold chunkLen at short
  unfold Counted at counted
  split
  · by_cases more : worker.current < worker.stop
    · rw [checkedSub_of_le (by omega)]
      simp
    · simp [more]
  · rename_i segment size at_pc
    simp only [Aligned, at_pc] at aligned
    simp only [at_pc] at short
    have cut : outOfRange (segment.body.take size).length
        (worker.writeLen segment.pos (segment.body.take size).length) = false :=
      decide_eq_false (Nat.not_lt.mpr (worker.writeLen_le _ _))
    have sum : segment.pos + (segment.body.take size).length < wordLimit := by
      unfold wordLimit
      omega
    dsimp only
    rw [cut, checkedAdd_of_lt sum, checkedSub_of_le (by omega)]
    simp
  · rename_i segment bytes at_pc
    simp only [Aligned, at_pc] at aligned
    simp only [at_pc] at counted
    have sum : segment.pos + bytes.length < wordLimit := by
      unfold wordLimit
      omega
    rw [checkedAdd_of_lt sum, checkedAdd_of_lt (by omega)]
    rfl
  · rfl

/-- The bytes of a write that are still to be counted are the debt of the worker. -/
theorem no_wrapsCounter {downloaded : Nat} (fits : downloaded + worker.uncounted < wordLimit) :
    worker.wrapsCounter downloaded event = false := by
  unfold wrapsCounter
  split
  · rename_i segment written at_pc
    have debt : worker.uncounted = written := by simp [uncounted, at_pc]
    rw [debt] at fits
    rw [checkedAdd_of_lt fits]
    rfl
  · rfl

end Worker

namespace Multi

variable {Text : Type} [SerdeJson Text] {job : Job} {disk : Disk Text} {multi : Multi} {io : FileIo} {act : Act}

/-- The split and the sum of the loaded bytes fit for every size of 64 bits. -/
theorem splitWraps_eq {fileSize : Nat} (fits : fileSize < wordLimit) (threadCount minChunk : Nat) :
    splitWraps fileSize threadCount minChunk = false := by
  unfold splitWraps
  rw [splitWorkersWord_eq fits]
  cases split : splitWorkers fileSize threadCount minChunk with
  | none =>
      unfold splitWorkers at split
      split_ifs at split with positive
      simp [positive]
  | some ranges =>
      rw [Option.bind_some, (splitWorkers_cover split).1.initialDownloaded_eq fits]
      simp

theorem loadWraps_eq {fileSize : Nat} (fits : fileSize < wordLimit) (file : Option Text) :
    loadWraps job fileSize file = false := by
  unfold loadWraps
  split
  · rename_i state loaded
    split_ifs with accepted
    · obtain ⟨_, _, _, valid⟩ := (load_ok_iff _ _).mp loaded
      obtain ⟨_, _, cover⟩ := (validate_ok_iff state).mp valid
      rw [((resumable_iff _ _ _).mp accepted).1] at cover
      rw [cover.initialDownloaded_eq fits]
      rfl
    · exact splitWraps_eq fits _ _
  · exact splitWraps_eq fits _ _

/-- A file of 2^63 bytes or more cannot be resized, and each chunk is shorter than that. -/
def Bounded (job : Job) (state : Disk Text × Multi) : Act → Prop
  | .main (.resized ok) => ok = true → job.fileSize < 2 ^ 63
  | .worker index event => ∀ worker ∈ state.2.workers[index]?, worker.chunkLen event < 2 ^ 63
  | _ => True

/-- A call that has begun stays inside its file, and a call that writes has a file that can be resized. -/
structure Fitting (job : Job) (multi : Multi) : Prop where
  controlled : Controlled (fun _ _ => True) job multi
  counted : ∀ worker ∈ multi.workers, worker.Counted
  sized : multi.phase.sized = true → job.fileSize < 2 ^ 63

theorem Fitting.downloaded_le (fitting : Fitting job multi) : multi.downloaded ≤ job.fileSize :=
  fitting.controlled.downloaded_le

omit [SerdeJson Text] in
/-- The main task runs on only behind a resize that succeeded. -/
theorem MainMove.sized {event : MainEvent} {after : Disk Text} {phase : Phase}
    (move : MainMove job disk multi event after phase) (bounded : Bounded job (disk, multi) (.main event))
    (before : multi.phase.sized = true → job.fileSize < 2 ^ 63) : phase.sized = true → job.fileSize < 2 ^ 63 := by
  cases move with
  | created | notCreated | notResized | discarded | notReopened => nofun
  | resized => exact fun _ => bounded rfl
  | settled _ at_phase | join at_phase | conclude at_phase | reopened at_phase | finalSync _ at_phase
  | deleted _ at_phase =>
      intro _
      apply before
      rw [at_phase]
      rfl

/-- Each step keeps the counts of the workers. -/
theorem counted_step (begun : multi.phase ≠ .loading) (counted : ∀ worker ∈ multi.workers, worker.Counted)
    {next : Disk Text × Multi} (taken : Multi.step io job (disk, multi) act = some next) :
    ∀ worker ∈ next.2.workers, worker.Counted := by
  cases act with
  | cancel =>
      cases taken
      exact counted
  | main event =>
      obtain ⟨phase, same, -⟩ := mainStep_move begun taken
      rw [same]
      exact counted
  | worker index event =>
      simp only [step, workerStep] at taken
      split at taken
      · rename_i worker running present
        obtain ⟨⟨moved, effect⟩, stepped, rfl⟩ := Option.map_eq_some_iff.mp taken
        have kept := (counted worker (List.mem_of_getElem? present)).step stepped
        cases effect <;> exact forall_mem_set counted kept
      · cases taken
  | saver event =>
      simp only [step, saverStep] at taken
      split at taken
      · obtain ⟨_, _, rfl⟩ := Option.map_eq_some_iff.mp taken
        exact counted
      · obtain ⟨_, _, rfl⟩ := Option.map_eq_some_iff.mp taken
        exact counted
      · cases taken
  | land index | lose index kept =>
      obtain ⟨worker, offset, bytes, present, carried⟩ := landStep_busy taken
      simp only [step, landStep, present, carried] at taken
      cases taken
      have member := List.mem_of_getElem? present
      exact forall_mem_set counted (counted worker member)
  | landOrphan index | loseOrphan index kept =>
      obtain ⟨offset, bytes, present⟩ := orphanStep_present taken
      simp only [step, orphanStep, present] at taken
      cases taken
      exact counted

theorem Fitting.step (fitting : Fitting job multi) (bounded : Bounded job (disk, multi) act)
    {next : Disk Text × Multi} (taken : Multi.step io job (disk, multi) act = some next) : Fitting job next.2 := by
  have change := fitting.controlled.step_change (answered_any _ _) taken
  refine ⟨fitting.controlled.change change, counted_step fitting.controlled.begun fitting.counted taken, ?_⟩
  generalize next.1 = after at change
  generalize next.2 = moved at change
  cases change with
  | main event _ phase move => exact move.sized bounded fitting.sized
  | worker _ _ _ _ effect => cases effect <;> exact fitting.sized
  | cancelled | saver | landed | lost | orphanLanded | orphanLost => exact fitting.sized

/-- Nothing wraps in a call that has begun. -/
theorem Fitting.no_wrap (fitting : Fitting job multi) (bounded : Bounded job (disk, multi) act) :
    multi.wraps job disk act = false := by
  unfold wraps
  split
  · rename_i loading
    exact absurd loading fitting.controlled.begun
  · rename_i index event running
    cases present : multi.workers[index]? with
    | none => rfl
    | some worker =>
        have member := List.mem_of_getElem? present
        have size := fitting.sized (by rw [running]; rfl)
        have inside := (fitting.controlled.tiles.bounds worker member).2.2
        have debt : worker.uncounted ≤ multi.uncounted := List.le_sum_of_mem (List.mem_map_of_mem member)
        have counter := fitting.controlled.counter
        have accepted := fitting.controlled.accepted_le
        have fits : multi.downloaded + worker.uncounted < wordLimit := by
          unfold wordLimit
          omega
        rw [Option.any_some, (fitting.controlled.sound worker member).no_wrap (fitting.counted worker member)
          (Nat.lt_of_le_of_lt inside size) (bounded worker present), Worker.no_wrapsCounter fits]
        rfl
  · rfl

/-- A call that has not begun computes only its ranges and their sum. -/
theorem Unbegun.no_wrap (unbegun : Unbegun job multi) (disk : Disk Text) (act : Act) :
    multi.wraps job disk act = false := by
  unfold wraps
  split
  · rw [Option.any_eq_false_iff_get]
    intro known
    exact loadWraps_eq (job.info.sizeFits _ (Option.get_mem known)) _
  · rw [unbegun.workers]
    rfl
  · rfl

/-- A call that has not begun counts nothing. -/
theorem Unbegun.downloaded_eq (unbegun : Unbegun job multi) {next : Disk Text × Multi}
    (taken : Multi.step io job (disk, multi) act = some next) (still : Unbegun job next.2) :
    next.2.downloaded = multi.downloaded := by
  cases act with
  | cancel =>
      cases taken
      rfl
  | main event =>
      by_cases loading : multi.phase = .loading
      · obtain ⟨-, readable, -, ⟨-, ended⟩ | ⟨-, ended⟩ | ⟨ranges, -, begun⟩⟩ := loadStep_cases loading taken
        · rw [ended]
        · rw [ended]
        · have opening := still.phase
          simp [begun, Multi.begin] at opening
      · obtain ⟨phase, same, -⟩ := mainStep_move loading taken
        rw [same]
  | saver event =>
      rw [unbegun.saver_waits] at taken
      cases taken
  | worker index event => simp [step, workerStep, unbegun.workers] at taken
  | land index | lose index => simp [step, landStep, unbegun.workers] at taken
  | landOrphan index | loseOrphan index => simp [step, orphanStep, unbegun.orphans] at taken

/-- In every call, whatever the sizes, the state file and the answers are, no number of 64 bits wraps, no slice ends
behind its chunk, and the counter stays within the file. -/
theorem never_wraps {acts : List Act} {last : Disk Text × Multi}
    (run : Run (Multi.step io job) (Bounded job) (disk, Multi.start job) acts last) :
    (∀ act, Bounded job last act → last.2.wraps job last.1 act = false) ∧ last.2.downloaded ≤ job.fileSize := by
  have held := run.invariant
    (fun state => (Unbegun job state.2 ∧ state.2.downloaded = 0) ∨ Fitting job state.2) ?_
    (Or.inl ⟨start_unbegun job, rfl⟩)
  · rcases held with ⟨unbegun, empty⟩ | fitting
    · exact ⟨fun act _ => unbegun.no_wrap last.1 act, empty ▸ Nat.zero_le _⟩
    · exact ⟨fun act bounded => fitting.no_wrap bounded, fitting.downloaded_le⟩
  · rintro ⟨before, multi⟩ act after (⟨unbegun, empty⟩ | fitting) bounded taken
    · rcases unbegun.step_cases taken with ⟨_, still⟩ | ⟨readable, ranges, rfl, chosen, rfl⟩
      · exact Or.inl ⟨still, (unbegun.downloaded_eq taken still).trans empty⟩
      · refine Or.inr ⟨unbegun.controlled chosen, ?_, nofun⟩
        intro worker member
        obtain ⟨range, _, rfl⟩ := List.mem_map.mp member
        exact Worker.spawn_counted range
    · exact Or.inr (fitting.step bounded taken)

instance (job : Job) (state : Disk Text × Multi) : ∀ act, Decidable (Bounded job state act)
  | .main (.resized ok) => inferInstanceAs (Decidable (ok = true → job.fileSize < 2 ^ 63))
  | .worker index event =>
      inferInstanceAs (Decidable (∀ worker ∈ state.2.workers[index]?, worker.chunkLen event < 2 ^ 63))
  | .cancel | .main (.load _) | .main (.created _) | .main (.synced _) | .main .join | .main .conclude
  | .main (.deleted _) | .saver _ | .land _ | .lose _ _ | .landOrphan _ | .loseOrphan _ _ => .isTrue trivial

/-- One worker downloads two bytes. -/
def countedActs : List Act :=
  [.main (.load true), .main (.created true), .main (.resized true), .main (.synced true), .worker 0 .check,
    .worker 0 (.reply (some ⟨206, none, none, [1, 2, 3]⟩)), .worker 0 (.opened true), .worker 0 (.chunk 3),
    .worker 0 .wrote, .worker 0 .store, .worker 0 .count]

def countedJob : Job := ⟨⟨"u", some 2, fits_two, true, none, none, none⟩, 1, {}⟩

def countedRun : Option (Disk DownloadState × Multi) :=
  replay (Multi.step .background countedJob) (⟨none, none⟩, Multi.start countedJob) countedActs

/-- The third byte of the answer is not counted. -/
theorem never_wraps_counted : (countedRun.get rfl).2.downloaded ≤ 2 := by
  have run : Run (Multi.step .background countedJob) (Bounded countedJob)
      ((⟨none, none⟩ : Disk DownloadState), Multi.start countedJob) countedActs (countedRun.get rfl) :=
    run_of_replay (by decide +kernel) (Option.some_get _).symm
  exact (never_wraps run).2

end Multi

end FastDownloader
