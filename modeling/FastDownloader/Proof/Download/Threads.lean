/-
This file proves when a call keeps to its thread count, whichever state it resumes.
-/

import FastDownloader.Proof.Download.Step
import FastDownloader.Proof.MultiThread.Assembly
import FastDownloader.Proof.MultiThread.Restart
import FastDownloader.Proof.State.Split

namespace FastDownloader

open Foundation

/-- Only a range with bytes gets a worker task. -/
def WorkerRange.needsTask (range : WorkerRange) : Bool := range.start < range.stop

def Worker.hasTask (worker : Worker) : Bool := worker.start < worker.stop

/-- This is the number of worker tasks of a running call. -/
def Multi.tasks (multi : Multi) : Nat := multi.workers.countP Worker.hasTask

/-- A call resumes only states with no more ranges to work on than it may have threads. -/
def ResumeFits {Text : Type} [SerdeJson Text] (session : Session (Disk Text) Download DownloadCall) :
    Move DownloadCall DownloadEvent → Prop
  | .step (.multi (.main (.load readable))) =>
      ∀ process ∈ session.active, ∀ path ∈ process.2.multi?,
        ∀ state ∈ (load (if readable then session.store.dlstate else none)).toOption,
          Multi.resumable path.1.info path.1.fileSize state = true →
          state.workers.countP WorkerRange.needsTask ≤ process.1.requestedThreads
  | _ => True

theorem DownloadCall.requestedThreads_pos (call : DownloadCall) : 1 ≤ call.requestedThreads := Nat.le_max_left _ _

theorem DownloadCall.requestedThreads_le {call : DownloadCall} (threads : 1 ≤ call.cfg.maxThreads) :
    call.requestedThreads ≤ call.cfg.maxThreads :=
  Nat.max_le.mpr ⟨threads, Nat.min_le_right _ _⟩

namespace Multi

variable {Text : Type} [SerdeJson Text] {io : FileIo} {job : Job} {disk : Disk Text} {multi : Multi} {act : Act}

omit [SerdeJson Text] in
theorem tasks_begin (multi : Multi) (ranges : List WorkerRange) :
    (multi.begin ranges).tasks = ranges.countP WorkerRange.needsTask := by
  rw [tasks, Multi.begin, List.countP_map]
  rfl

/-- A fresh split has no more ranges than threads. -/
theorem splitWorkers_tasks {fileSize threadCount minChunk : Nat} {ranges : List WorkerRange}
    (split : splitWorkers fileSize threadCount minChunk = some ranges) (positive : 1 ≤ threadCount) :
    ranges.countP WorkerRange.needsTask ≤ threadCount := by
  have counted := List.countP_le_length (p := WorkerRange.needsTask) (l := ranges)
  have length := splitWorkers_length split
  have bounded : effectiveThreads fileSize threadCount minChunk ≤ max threadCount 1 := effectiveThreads_le_threads
  rw [Nat.max_eq_left positive] at bounded
  omega

/-- The workers of a call keep their ranges. -/
theorem Controlled.tasks_eq (controlled : Controlled (fun _ _ => True) job multi) {next : Disk Text × Multi}
    (taken : Multi.step io job (disk, multi) act = some next) : next.2.tasks = multi.tasks := by
  have grows := (controlled.step_change (answered_any _ _) taken).grows controlled
  have counted {before after : List Worker} (all : List.Forall₂ Worker.Grows before after) :
      after.countP Worker.hasTask = before.countP Worker.hasTask := by
    induction all with
    | nil => rfl
    | @cons worker moved before after grown _ ih =>
        have same : moved.hasTask = worker.hasTask := by rw [Worker.hasTask, Worker.hasTask, grown.start, grown.stop]
        rw [List.countP_cons, List.countP_cons, ih, same]
  exact counted grows

/-- A call works on as many ranges as it may have threads. -/
structure Staffed (call : DownloadCall) (job : Job) (multi : Multi) : Prop where
  begun : Unbegun job multi ∨ Controlled (fun _ _ => True) job multi
  clamped : job.threadCount = call.requestedThreads
  threads : 1 ≤ call.cfg.maxThreads
  tasks : multi.tasks ≤ call.requestedThreads

theorem Staffed.step {call : DownloadCall} (staffed : Staffed call job multi)
    (fits : ∀ readable, act = .main (.load readable) → ∀ state,
      load (if readable then disk.dlstate else none) = .ok state → resumable job.info job.fileSize state = true →
      state.workers.countP WorkerRange.needsTask ≤ call.requestedThreads)
    {next : Disk Text × Multi} (taken : Multi.step io job (disk, multi) act = some next) : Staffed call job next.2 := by
  refine ⟨step_begun staffed.begun taken, staffed.clamped, staffed.threads, ?_⟩
  rcases staffed.begun with unbegun | controlled
  · rcases unbegun.step_cases taken with ⟨_, still⟩ | ⟨readable, ranges, rfl, chosen, rfl⟩
    · rw [Multi.tasks, still.workers]
      exact Nat.zero_le _
    · rw [tasks_begin]
      rcases chooseRanges_cases chosen with ⟨state, loaded, accepted, rfl⟩ | ⟨-, split⟩
      · exact fits readable rfl state loaded accepted
      · have positive : 1 ≤ job.threadCount := staffed.clamped.symm ▸ call.requestedThreads_pos
        exact staffed.clamped ▸ splitWorkers_tasks split positive
  · rw [controlled.tasks_eq taken]
    exact staffed.tasks

/-- A call that resumes a state runs one worker task for each saved range with bytes, whatever its thread count is. -/
theorem tasks_of_resume (loading : multi.phase = .loading) {fileSize : Nat} (sized : job.info.size = some fileSize)
    {readable : Bool} {state : DownloadState} (loaded : load (if readable then disk.dlstate else none) = .ok state)
    (accepted : resumable job.info fileSize state = true) :
    ∃ next, Run (Multi.step io job) (fun _ _ => True) (disk, multi)
        [.main (.load readable), .main (.created true), .main (.resized true), .main (.synced true)] next ∧
      next.2.phase = .running ∧ next.2.tasks = state.workers.countP WorkerRange.needsTask := by
  have chosen : chooseRanges job fileSize (if readable then disk.dlstate else none) = some state.workers := by
    rw [chooseRanges, loaded]
    dsimp only
    rw [if_pos accepted]
  have begun : Multi.step io job (disk, multi) (.main (.load readable)) = some (disk, multi.begin state.workers) := by
    simp only [step, mainStep, loading, sized, chosen]
  refine ⟨((disk.openCreate.setLen job.fileSize).sync, { multi.begin state.workers with phase := .running }), ?_, rfl, ?_⟩
  · exact .cons trivial begun (.cons trivial rfl (.cons trivial rfl (.cons trivial rfl (.nil _))))
  · exact tasks_begin multi state.workers

end Multi

namespace Download

variable {Text : Type} [SerdeJson Text] {io : FileIo} {hasher : Hasher} {call : DownloadCall} {disk : Disk Text}
  {download : Download} {event : DownloadEvent}

def Staffed (call : DownloadCall) (download : Download) : Prop :=
  ∀ path ∈ download.multi?, Multi.Staffed call path.1 path.2

/-- The probe gives the multi-thread path the clamped thread count, and each step keeps to it. -/
theorem Staffed.step (staffed : download.Staffed call)
    (fits : ResumeFits ⟨disk, some (call, download)⟩ (.step event)) {next : Disk Text × Download}
    (taken : Download.step io hasher call (disk, download) event = some next) : next.2.Staffed call := by
  refine multi_keeps (fun _ _ threads => ⟨Or.inl ⟨Or.inl rfl, rfl, rfl, rfl⟩, rfl, threads, Nat.zero_le _⟩) ?_
    staffed taken
  rintro act job multi after rfl path held stepped
  refine held.step ?_ stepped
  rintro readable rfl state loaded
  exact fits (call, download) rfl (job, multi) path state (by simp [loaded, Except.toOption])

/-- In every history of calls that resume only fitting states, no call has more worker tasks than its clamped thread
count. -/
theorem tasks_le_threads {moves : List (Move DownloadCall DownloadEvent)}
    {last : Session (Disk Text) Download DownloadCall}
    (run : Run (downloads Text io hasher).session ResumeFits ⟨disk, none⟩ moves last)
    {call : DownloadCall} {download : Download} {job : Job} {multi : Multi}
    (active : last.active = some (call, download)) (at_pc : download.pc = .multi job multi) :
    multi.tasks ≤ call.requestedThreads ∧ call.requestedThreads ≤ call.cfg.maxThreads := by
  have keeps : (downloads Text io hasher).Keeps ResumeFits (fun _ => True)
      (fun call _ download => download.Staffed call) := by
    refine ⟨?_, ?_, fun _ _ _ _ _ _ _ => trivial, fun _ _ _ _ _ => trivial⟩
    · intro store call _ _ path member
      cases member
    · intro call store download event next staffed fits taken
      exact staffed.step fits taken
  have held := keeps.invariant run trivial
  obtain ⟨store, process⟩ := last
  obtain rfl := active
  have staffed : Multi.Staffed call job multi := held (job, multi) (by simp [multi?, at_pc])
  exact ⟨staffed.tasks, call.requestedThreads_le staffed.threads⟩

/-- This resource of three bytes is split into one range for each thread. -/
def threeBytesInfo : FileInfo := ⟨"u", some 3, by simp, true, some "a", none, none⟩

/-- A call with these thread limits comes to the point where its workers run. -/
def runningMoves (defaultThreads maxThreads : Nat) : List (Move DownloadCall DownloadEvent) :=
  .start ⟨{ url := "u" }, { defaultThreads := defaultThreads, maxThreads := maxThreads, minChunkSize := 1 }⟩ ::
    [.parsed true, .prepared true, .probed (.ok threeBytesInfo), .multi (.main (.load true)),
      .multi (.main (.created true)), .multi (.main (.resized true)), .multi (.main (.synced true))].map .step

/-- The state task of a call with three workers saves their ranges, and the call is killed. -/
def savedMoves : List (Move DownloadCall DownloadEvent) :=
  runningMoves 3 32 ++ ([.opened true, .tick, .load, .load, .load, .load, .saved true].map fun event =>
    .step (.multi (.saver event))) ++ [.kill]

def threadHistory (moves : List (Move DownloadCall DownloadEvent)) :
    Option (Session (Disk DownloadState) Download DownloadCall) :=
  replay (downloads DownloadState .background anyHasher).session ⟨⟨none, none⟩, none⟩ moves

instance (session : Session (Disk DownloadState) Download DownloadCall) (move : Move DownloadCall DownloadEvent) :
    Decidable (ResumeFits session move) := by
  unfold ResumeFits
  split <;> infer_instance

/-- A later call with three threads takes over all three ranges. -/
theorem tasks_le_threads_resumed :
    ∃ call multi, ((threadHistory (savedMoves ++ runningMoves 3 4)).get rfl).active = some call ∧
      call.2.multi?.map Prod.snd = some multi ∧ multi.phase = .running ∧
      multi.tasks ≤ call.1.requestedThreads ∧ call.1.requestedThreads ≤ call.1.cfg.maxThreads := by
  have run : Run (downloads DownloadState .background anyHasher).session ResumeFits ⟨⟨none, none⟩, none⟩
      (savedMoves ++ runningMoves 3 4) ((threadHistory (savedMoves ++ runningMoves 3 4)).get rfl) :=
    run_of_replay (by decide +kernel) (Option.some_get _).symm
  exact ⟨_, _, rfl, rfl, rfl, tasks_le_threads run rfl rfl⟩

/-- Each call has a valid thread limit. -/
def Limited {Text : Type} (_session : Session (Disk Text) Download DownloadCall) : Move DownloadCall DownloadEvent → Prop
  | .start call => 1 ≤ call.cfg.maxThreads
  | _ => True

instance {Text : Type} (session : Session (Disk Text) Download DownloadCall) : ∀ move, Decidable (Limited session move)
  | .start call => inferInstanceAs (Decidable (1 ≤ call.cfg.maxThreads))
  | .step _ | .finish | .kill => .isTrue trivial

/-- A call with at most two threads takes over three ranges too. -/
theorem tasks_exceed_threads :
    ¬ ∀ moves last, Run (downloads DownloadState .background anyHasher).session Limited ⟨⟨none, none⟩, none⟩ moves last →
      ∀ call download job multi, last.active = some (call, download) → download.pc = .multi job multi →
        multi.phase = .running → multi.tasks ≤ call.requestedThreads := by
  intro bounded
  have run : Run (downloads DownloadState .background anyHasher).session Limited ⟨⟨none, none⟩, none⟩
      (savedMoves ++ runningMoves 16 2) ((threadHistory (savedMoves ++ runningMoves 16 2)).get rfl) :=
    run_of_replay (by decide +kernel) (Option.some_get _).symm
  exact absurd (bounded _ _ run _ _ _ _ rfl rfl rfl) (by decide +kernel)

end Download

end FastDownloader
