/-
This file proves when a call may trust saved positions without a look at the data file.
-/

import FastDownloader.Proof.Disk.Contents
import FastDownloader.Proof.MultiThread.Landing
import FastDownloader.Proof.MultiThread.Liveness
import FastDownloader.Proof.MultiThread.Restart

namespace FastDownloader

open Foundation

/-- This ledger asks that the bytes below the saved positions stay as they were. -/
def keptBytes (ranges : List WorkerRange) (earlier : Nat → UInt8) : Ledger fun _ _ => True where
  todo := fun position _ => ¬ Named ranges position
  done := fun position cell => Named ranges position → cell.byte = earlier position
  put := fun _ _ _ todo _ named => absurd named todo
  sync_todo := fun _ _ todo => todo
  sync_done := fun _ _ done => done

theorem keptBytes_tears (ranges : List WorkerRange) (earlier : Nat → UInt8) :
    (keptBytes ranges earlier).Tears := fun _ _ _ todo _ => todo

namespace Multi

variable {Text : Type} [SerdeJson Text] {io : FileIo} {job : Job} {disk : Disk Text} {content : List UInt8}
  {state : DownloadState}

/-- A state that the guard accepts is reused, whatever the data file holds. -/
theorem chooseRanges_reuses (loaded : load disk.dlstate = .ok state)
    (accepted : resumable job.info job.fileSize state = true) :
    chooseRanges job job.fileSize disk.dlstate = some state.workers := by
  simp [chooseRanges, loaded, accepted]

omit [SerdeJson Text] in
/-- The answers of servers do not depend on the writes that are under way. -/
theorem Resembles.answers (content : List UInt8) (before shown : Disk Text × Multi) (act : Act)
    (resembles : Resembles before shown) (answered : before.2.Answered (ByteOf content) act) :
    shown.2.Answered (ByteOf content) act :=
  (resembles.answered _ _).mpr answered

/-- Saved bytes that are right, a hole read as zero, make every successful call right. -/
theorem success_right (size : job.info.size = some content.length)
    (agrees : ∀ state, load disk.dlstate = .ok state → resumable job.info job.fileSize state = true →
      ∀ position, Named state.workers position → content[position]? = some (disk.cell position).byte)
    {acts : List Act} {last : Disk Text × Multi}
    (run : Run (Multi.step io job) (Serving content) (disk, Multi.start job) acts last)
    (returned : last.2.outcome = some (.ok ())) : last.1.contents = some content := by
  have fileSize : job.fileSize = content.length := by simp [Job.fileSize, size]
  obtain ⟨more, shown, led, resembles⟩ := run_resembles (start_shadows rfl job) run (Resembles.answers content)
  rw [← Disk.contents_seen (resembles.returned returned)]
  have held := led.invariant
    (fun now => (Unbegun job now.2 ∧ now.1 = disk) ∨ Tracked (rightBytes (ByteOf content)) job now.1 now.2) ?_
    (Or.inl ⟨start_unbegun job, rfl⟩)
  · have ended := resembles.outcome.trans returned
    rcases held with ⟨unbegun, -⟩ | tracked
    · exact absurd ended unbegun.outcome
    · exact tracked.contents fileSize ((outcome_iff _ _).mp ended)
  · rintro ⟨now, multi⟩ act next (⟨unbegun, rfl⟩ | tracked) answered taken
    · rcases unbegun.step_cases taken with ⟨same, still⟩ | ⟨readable, ranges, -, chosen, rfl⟩
      · exact Or.inl ⟨still, same⟩
      · exact Or.inr (begin_right unbegun agrees chosen)
    · exact Or.inr (tracked.step answered (Or.inl (rightBytes_tears _)) taken)

/-- A successful call leaves every saved byte as it was. -/
theorem success_keeps {ranges : List WorkerRange} (chosen : chooseRanges job job.fileSize disk.dlstate = some ranges)
    {last : Disk Text × Multi} (led : Leads io content job (disk, (Multi.start job).begin ranges) last)
    (returned : last.2.outcome = some (.ok ())) {position : Nat} (named : Named ranges position) :
    (last.1.cell position).byte = (disk.cell position).byte := by
  obtain ⟨cover, nonempty⟩ := chooseRanges_cover chosen
  obtain ⟨acts, run⟩ := led
  obtain ⟨more, shown, led, resembles⟩ := run_resembles (begin_shadows disk chosen) run (Resembles.answers content)
  rw [← Disk.byte_seen (resembles.returned returned)]
  have tracked := led.invariant
    (fun now => Tracked (keptBytes ranges fun position => (disk.cell position).byte) job now.1 now.2)
    (fun _ _ _ held _ taken => held.step (answered_any _ _) (Or.inl (keptBytes_tears _ _)) taken)
    (begin_tracked cover nonempty rfl rfl (fun _ _ _ _ => rfl) (fun _ _ free => free))
  have ended := (outcome_iff _ _).mp (resembles.outcome.trans returned)
  exact tracked.complete (by simp [ended, Phase.checked]) (cover.named_lt named) named

/-- The successes of a call are right exactly when the state that it accepts names only right bytes. -/
theorem successes_right_iff (size : job.info.size = some content.length) :
    (∀ acts last, Run (Multi.step io job) (Serving content) (disk, Multi.start job) acts last →
      last.2.outcome = some (.ok ()) → last.1.contents = some content) ↔
    ∀ state, load disk.dlstate = .ok state → resumable job.info job.fileSize state = true →
      ∀ position, Named state.workers position → content[position]? = some (disk.cell position).byte := by
  refine ⟨fun right state loaded accepted position named => ?_,
    fun agrees acts last run returned => success_right size agrees run returned⟩
  have reused := chooseRanges_reuses loaded accepted
  obtain ⟨last, led, returned⟩ := exists_success size reused
  have begun : Leads io content job (disk, Multi.start job) (disk, (Multi.start job).begin state.workers) := by
    refine .single (.main (.load true)) ⟨trivial, trivial⟩ ?_
    have fileSize : job.fileSize = content.length := by simp [Job.fileSize, size]
    rw [fileSize] at reused
    simp [Multi.step, mainStep, Multi.start, size, reused]
  obtain ⟨acts, run⟩ := begun.trans led
  have whole := right acts last run returned
  obtain ⟨cover, _⟩ := chooseRanges_cover reused
  have inside : position < content.length := by
    have below := cover.named_lt named
    simpa [Job.fileSize, size] using below
  rw [Disk.byte_of_contents whole inside, success_keeps reused led returned named]

/-- A call leaves the saved positions unused exactly when they name no offset. When no write is lost, its successes are
right exactly when the data file, read as zero where it is missing, already holds the right byte at every named
offset. -/
theorem saved_positions_honoured (size : job.info.size = some content.length)
    (loaded : load disk.dlstate = .ok state) (accepted : resumable job.info job.fileSize state = true) :
    (((∀ ranges, chooseRanges job job.fileSize disk.dlstate = some ranges → ∀ position, ¬ Named ranges position) ∧
        ∀ acts last, Run (Multi.step io job) (Serving content) (disk, Multi.start job) acts last →
          last.2.outcome = some (.ok ()) → last.1.contents = some content) ↔
      ∀ position, ¬ Named state.workers position) ∧
    ((∀ acts last, Run (Multi.step io job) (Serving content) (disk, Multi.start job) acts last →
        last.2.outcome = some (.ok ()) → last.1.contents = some content) ↔
      ∀ position, Named state.workers position → content[position]? = some (disk.cell position).byte) := by
  have reused := chooseRanges_reuses loaded accepted
  have only : ∀ other, load disk.dlstate = .ok other → other = state := fun other found =>
    Except.ok.inj (found.symm.trans loaded)
  refine ⟨⟨fun honoured => honoured.1 _ reused, fun unnamed => ⟨?_, ?_⟩⟩,
    fun right => (successes_right_iff size).mp right state loaded accepted,
    fun agrees => (successes_right_iff size).mpr ?_⟩
  · intro ranges chosen
    obtain rfl := Option.some.inj (reused.symm.trans chosen)
    exact unnamed
  · refine (successes_right_iff size).mpr fun other found _ position named => ?_
    obtain rfl := only other found
    exact absurd named (unnamed position)
  · intro other found _
    obtain rfl := only other found
    exact agrees

/-- A state of the one-byte resource that names the bytes below this position. -/
def oneByteState (current : Nat) : DownloadState :=
  (DownloadState.new "u" 1 [⟨0, current, 1⟩]).withResourceId (some "a") none

theorem saved_positions_honoured_unnamed :
    ((replay (Multi.step .through oneByte) (⟨none, some (oneByteState 0)⟩, Multi.start oneByte)
      (.main (.load true) :: oneByteActs)).get rfl).1.contents = some [7] := by
  have run : Run (Multi.step .through oneByte) (Serving [7])
      (⟨none, some (oneByteState 0)⟩, Multi.start oneByte) (.main (.load true) :: oneByteActs)
      ((replay (Multi.step .through oneByte) (⟨none, some (oneByteState 0)⟩, Multi.start oneByte)
        (.main (.load true) :: oneByteActs)).get rfl) :=
    run_of_replay (by decide +kernel) (Option.some_get _).symm
  refine (saved_positions_honoured rfl rfl rfl).2.mpr ?_ _ _ run rfl
  rintro position ⟨range, member, -, upper⟩
  obtain rfl := List.mem_singleton.mp member
  cases upper

/-- No worker has anything to do, because the state names the whole file. -/
def idleActs : List Act :=
  [.main (.load true), .main (.created true), .main (.resized true), .main (.synced true), .worker 0 .check,
    .main .join, .saver (.opened true), .saver .halt, .saver .load, .saver .load, .saver (.saved true),
    .main .conclude, .main (.created true), .main (.synced true), .main (.deleted true)]

/-- With no data file at all, a state that names the whole file is reused, and the call succeeds with a zero byte. -/
theorem saved_positions_not_honoured :
    load (some (oneByteState 1)) = .ok (oneByteState 1) ∧
      resumable oneByte.info oneByte.fileSize (oneByteState 1) = true ∧
      (¬ ∀ ranges, chooseRanges oneByte oneByte.fileSize (some (oneByteState 1)) = some ranges →
        ∀ position, ¬ Named ranges position) ∧
      ¬ ∀ acts last, Run (Multi.step .through oneByte) (Serving [7])
          (⟨none, some (oneByteState 1)⟩, Multi.start oneByte) acts last →
        last.2.outcome = some (.ok ()) → last.1.contents = some [7] := by
  refine ⟨rfl, rfl, fun unused => ?_, fun right => ?_⟩
  · exact unused [⟨0, 1, 1⟩] rfl 0 ⟨⟨0, 1, 1⟩, by decide, by decide, by decide⟩
  · have run : Run (Multi.step .through oneByte) (Serving [7])
        (⟨none, some (oneByteState 1)⟩, Multi.start oneByte) idleActs
        ((replay (Multi.step .through oneByte) (⟨none, some (oneByteState 1)⟩, Multi.start oneByte)
          idleActs).get rfl) :=
      run_of_replay (by decide +kernel) (Option.some_get _).symm
    exact absurd (right _ _ run rfl) (by decide +kernel)

end Multi

end FastDownloader
