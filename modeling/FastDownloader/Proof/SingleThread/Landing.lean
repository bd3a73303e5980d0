/-
This file proves that a single-thread call that loses no background write looks like a call whose writes take effect at
once.
-/

import FastDownloader.Proof.Disk.Pending
import FastDownloader.Proof.SingleThread.Cancel
import FastDownloader.Proof.Worker.Landed

namespace FastDownloader

open Foundation

namespace Single

variable {Text : Type} {job : Job} {disk other : Disk Text} {single : Single} {event : SingleEvent}

/-- The call once its background write has landed. -/
def landed (single : Single) : Single := { single with handle := single.handle.landed }

theorem landed_fail (single : Single) (cfg : DownloaderConfig) (error : Error) :
    single.landed.fail cfg error = (single.fail cfg error).landed := by
  unfold fail landed
  dsimp only
  split_ifs <;> rfl

theorem fail_handle (cfg : DownloaderConfig) (error : Error) : (single.fail cfg error).handle = single.handle :=
  (fail_rest cfg single error).2.2.2.1

theorem landed_onHead : single.landed.onHead = single.onHead.landed := by
  unfold onHead landed
  dsimp only
  split_ifs <;> rfl

theorem onHead_handle : single.onHead.handle = single.handle := by
  unfold onHead
  split_ifs <;> rfl

theorem landed_onStat (job : Job) (existing : Nat) :
    single.landed.onStat job existing = (single.onStat job existing).landed := by
  unfold onStat landed
  split_ifs <;> rfl

theorem onStat_handle (job : Job) (existing : Nat) : (single.onStat job existing).handle = single.handle := by
  unfold onStat
  split_ifs <;> rfl

theorem landed_onReply (job : Job) (existing : Nat) (resume : Bool) (response : Response) :
    single.landed.onReply job existing resume response = (single.onReply job existing resume response).landed := by
  unfold onReply
  split
  · rfl
  · rfl
  · rfl
  · split_ifs
    · rfl
    · exact landed_fail _ _ _

theorem onReply_handle (job : Job) (existing : Nat) (resume : Bool) (response : Response) :
    (single.onReply job existing resume response).handle = single.handle := by
  unfold onReply
  split
  · rfl
  · rfl
  · rfl
  · split_ifs
    · rfl
    · exact fail_handle _ _

theorem landed_onChunk (stream : Stream) (size : Nat) :
    single.landed.onChunk stream size = (single.onChunk stream size).landed := by
  unfold onChunk landed
  dsimp only
  split_ifs <;> rfl

theorem onChunk_handle (stream : Stream) (size : Nat) : (single.onChunk stream size).handle = single.handle := by
  unfold onChunk
  dsimp only
  split_ifs <;> rfl

theorem landed_onWrote (cfg : DownloaderConfig) (stream : Stream) (bytes : List UInt8) :
    single.landed.onWrote cfg stream bytes = (single.onWrote cfg stream bytes).landed := by
  unfold onWrote landed
  dsimp only
  split_ifs <;> rfl

theorem onWrote_handle (cfg : DownloaderConfig) (stream : Stream) (bytes : List UInt8) :
    (single.onWrote cfg stream bytes).handle = single.handle := by
  unfold onWrote
  dsimp only
  split_ifs <;> rfl

theorem landed_onFlushed (cfg : DownloaderConfig) (stream : Stream) :
    single.landed.onFlushed cfg stream = (single.onFlushed cfg stream).landed := by
  unfold onFlushed landed
  split_ifs <;> rfl

theorem onFlushed_handle (cfg : DownloaderConfig) (stream : Stream) :
    (single.onFlushed cfg stream).handle = single.handle := by
  unfold onFlushed
  split_ifs <;> rfl

theorem landed_onClosed (cfg : DownloaderConfig) (total : Option Nat) (result : Except Error Unit) :
    single.landed.onClosed cfg total result = (single.onClosed cfg total result).landed := by
  unfold onClosed
  cases result with
  | error error => exact landed_fail { single with handle := .closed } cfg error
  | ok => cases total <;> rfl

theorem onClosed_handle (cfg : DownloaderConfig) (total : Option Nat) (result : Except Error Unit) :
    (single.onClosed cfg total result).handle = .closed := by
  unfold onClosed
  cases result with
  | error error => exact fail_handle cfg error
  | ok => cases total <;> rfl

theorem landed_onMeasured (cfg : DownloaderConfig) (total onDisk : Nat) :
    single.landed.onMeasured cfg total onDisk = (single.onMeasured cfg total onDisk).landed := by
  unfold onMeasured
  split_ifs
  · exact landed_fail _ _ _
  · rfl

theorem onMeasured_handle (cfg : DownloaderConfig) (total onDisk : Nat) :
    (single.onMeasured cfg total onDisk).handle = single.handle := by
  unfold onMeasured
  split_ifs
  · exact fail_handle _ _
  · rfl

/-- What holds of a call with background writes and of the call that it looks like. -/
structure Shadows (before shown : Disk Text × Single) : Prop where
  healthy : before.2.handle ≠ .failed
  parked : before.2.hasHandle = false → before.2.handle.flight = none
  process : shown.2 = before.2.landed
  seen : shown.1.faded = (before.1.writeAll before.2.handle.flight.toList).faded

variable {before shown after : Disk Text × Single}

theorem start_shadows (seen : other.faded = disk.faded) (cancelled : Bool) :
    Shadows (disk, Single.start cancelled) (other, Single.start cancelled) :=
  ⟨by rintro ⟨⟩, fun _ => rfl, rfl, seen⟩

/-- A call without a write under way shows its own disk. -/
theorem Shadows.settled (shadows : Shadows before shown) (free : before.2.handle.flight = none) :
    shown.1.faded = before.1.faded := by
  have seen := shadows.seen
  rwa [free] at seen

theorem Shadows.dlstate (shadows : Shadows before shown) : shown.1.dlstate = before.1.dlstate :=
  Disk.dlstate_seen shadows.seen

theorem Shadows.outcome (shadows : Shadows before shown) : shown.2.outcome = before.2.outcome := by
  rw [shadows.process]
  rfl

/-- A call that has returned shows its own disk. -/
theorem Shadows.returned (shadows : Shadows before shown) {result : Except Error Unit}
    (ended : before.2.outcome = some result) : shown.1.faded = before.1.faded := by
  have at_pc := (outcome_iff _ _).mp ended
  exact shadows.settled (shadows.parked (by simp [hasHandle, at_pc]))

/-- A handle that carries a write is closed only once it has landed. -/
theorem step_parked (parked : single.hasHandle = false → single.handle.flight = none)
    (taken : Single.step .background job (disk, single) event = some after) :
    after.2.hasHandle = false → after.2.handle.flight = none := by
  have bare : ∀ moved : Single, moved.handle = single.handle → single.hasHandle = false →
      moved.hasHandle = false → moved.handle.flight = none :=
    fun moved same bare _ => same.symm ▸ parked bare
  have move := step_move taken
  obtain ⟨store, moved⟩ := after
  dsimp only at move ⊢
  cases move with
  | cancelled => exact parked
  | landed | lost | opened => exact fun _ => rfl
  | stopped at_pc | began at_pc | created _ _ at_pc | slept at_pc => exact bare _ rfl (by simp [hasHandle, at_pc])
  | looked readable at_pc => exact bare _ (onStat_handle _ _) (by simp [hasHandle, at_pc])
  | answered existing resume response at_pc => exact bare _ (onReply_handle _ _ _ _) (by simp [hasHandle, at_pc])
  | chunk stream size =>
      unfold onChunk
      dsimp only
      split_ifs <;> rintro ⟨⟩
  | wrote | passed =>
      unfold onWrote
      dsimp only
      split_ifs <;> rintro ⟨⟩
  | flushed =>
      unfold onFlushed
      split_ifs <;> rintro ⟨⟩
  | ended | torn | synced | broken => rintro ⟨⟩
  | closed total result =>
      rw [onClosed_handle]
      exact fun _ => rfl
  | measured total at_pc => exact bare _ (onMeasured_handle _ _ _) (by simp [hasHandle, at_pc])
  | failed _ error _ idle => exact bare _ (fail_handle _ _) idle
  | interrupted idle => exact bare _ rfl idle

/-- Most steps leave the handle and the disk alone. -/
theorem Shadows.quiet {moved : Single} (shadows : Shadows (disk, single) (other, single.landed))
    (parked : moved.hasHandle = false → moved.handle.flight = none) (same : moved.handle = single.handle)
    (stepped : Single.step .through job (other, single.landed) event = some (other, moved.landed)) :
    ∃ next, Shadows (disk, moved) next ∧
      (next = (other, single.landed) ∨ Single.step .through job (other, single.landed) event = some next) := by
  refine ⟨(other, moved.landed), ⟨?_, parked, rfl, ?_⟩, Or.inr stepped⟩
  · rw [same]
    exact shadows.healthy
  · rw [same]
    exact shadows.seen

/-- The write is under way, and the other call has already done it. -/
theorem Shadows.passed {stream : Stream} {bytes : List UInt8} (shadows : Shadows (disk, single) (other, single.landed))
    (at_pc : single.pc = .writing stream bytes) (idle : single.handle = .idle)
    (parked : ({ single with handle := .busy stream.pos bytes }.onWrote job.cfg stream bytes).hasHandle = false →
      ({ single with handle := .busy stream.pos bytes }.onWrote job.cfg stream bytes).handle.flight = none) :
    ∃ next, Shadows (disk, { single with handle := .busy stream.pos bytes }.onWrote job.cfg stream bytes) next ∧
      (next = (other, single.landed) ∨ Single.step .through job (other, single.landed) .wrote = some next) := by
  have same : single.landed.pc = .writing stream bytes := at_pc
  have whole : ({ single with handle := .busy stream.pos bytes }.onWrote job.cfg stream bytes).landed =
      single.landed.onWrote job.cfg stream bytes := by
    rw [← landed_onWrote]
    simp only [landed, idle, Handle.landed]
  have seen := shadows.settled (by rw [idle]; rfl)
  refine ⟨(other.write stream.pos bytes, single.landed.onWrote job.cfg stream bytes),
    ⟨?_, parked, whole.symm, ?_⟩, Or.inr (by simp only [Single.step, same])⟩
  · rw [onWrote_handle]
    rintro ⟨⟩
  · rw [onWrote_handle]
    change (other.write stream.pos bytes).faded = (disk.write stream.pos bytes).faded
    rw [Disk.faded_write, Disk.faded_write, seen]

/-- A file is closed only once its write has landed. -/
theorem Shadows.closed {total : Option Nat} {result : Except Error Unit} {synced : Bool}
    (shadows : Shadows (disk, single) (other, single.landed)) (at_pc : single.pc = .closing total result)
    (rests : Single.settled .background single.handle = true)
    (parked : (single.onClosed job.cfg total result).hasHandle = false →
      (single.onClosed job.cfg total result).handle.flight = none) :
    ∃ next, Shadows (if synced then disk.sync else disk, single.onClosed job.cfg total result) next ∧
      (next = (other, single.landed) ∨
        Single.step .through job (other, single.landed) (.closed synced) = some next) := by
  have same : single.landed.pc = .closing total result := at_pc
  have free : single.handle.flight = none := by
    cases carried : single.handle with
    | busy => simp [Single.settled, carried] at rests
    | closed | idle | failed => rfl
  refine ⟨(if synced then other.sync else other, single.landed.onClosed job.cfg total result), ⟨?_, parked, ?_, ?_⟩,
    Or.inr (by simp [Single.step, same, Single.settled])⟩
  · rw [onClosed_handle]
    rintro ⟨⟩
  · exact landed_onClosed _ _ _
  · rw [onClosed_handle]
    change (if synced then other.sync else other).faded = (if synced then disk.sync else disk).faded
    cases synced with
    | true => exact (Disk.faded_sync _).trans ((shadows.settled free).trans (Disk.faded_sync _).symm)
    | false => exact shadows.settled free

/-- Each step without a lost write is a step of the call that it looks like, or it does not show. -/
theorem Shadows.step (shadows : Shadows before shown) (landing : ∀ kept, event ≠ .lose kept)
    (taken : Single.step .background job before event = some after) :
    ∃ next, Shadows after next ∧ (next = shown ∨ Single.step .through job shown event = some next) := by
  obtain ⟨disk, single⟩ := before
  obtain ⟨other, shadow⟩ := shown
  obtain rfl : shadow = single.landed := shadows.process
  have parked := step_parked shadows.parked taken
  have seen : other.faded = (disk.writeAll single.handle.flight.toList).faded := shadows.seen
  have healthy : single.handle ≠ .failed := shadows.healthy
  unfold Single.step at taken
  dsimp only at taken
  split at taken
  · cases taken
    exact shadows.quiet parked rfl rfl
  · split at taken <;> rename_i held <;> cases taken
    refine ⟨(other, single.landed), ⟨by rintro ⟨⟩, parked, ?_, ?_⟩, Or.inl rfl⟩
    · simp only [landed, held, Handle.landed]
    · rwa [held] at seen
  · exact absurd rfl (landing _)
  · rename_i at_pc
    cases taken
    have same : single.landed.pc = .head := at_pc
    exact shadows.quiet parked onHead_handle (by simp only [Single.step, same, landed_onHead])
  · rename_i readable at_pc
    cases taken
    have same : single.landed.pc = .looking := at_pc
    have free := shadows.parked (by simp [hasHandle, at_pc])
    have length : other.length = disk.length := Disk.length_seen (shadows.settled free)
    exact shadows.quiet parked (onStat_handle _ _) (by simp only [Single.step, same, length, landed_onStat])
  · rename_i existing resume at_pc
    cases taken
    have same : single.landed.pc = .sent existing resume := at_pc
    exact shadows.quiet parked (fail_handle _ _) (by simp only [Single.step, same, landed_fail])
  · rename_i existing resume response at_pc
    cases taken
    have same : single.landed.pc = .sent existing resume := at_pc
    exact shadows.quiet parked (onReply_handle _ _ _ _) (by simp only [Single.step, same, landed_onReply])
  · rename_i existing resume at_pc
    split_ifs at taken with stopped
    cases taken
    exact shadows.quiet parked rfl (by simp [Single.step, landed, at_pc, stopped])
  · rename_i total body ok at_pc
    have same : single.landed.pc = .creating total body := at_pc
    have free := shadows.parked (by simp [hasHandle, at_pc])
    split_ifs at taken with made <;> cases taken
    · refine ⟨(other.create, { single.landed with pc := .opening ⟨0, total, 0, body⟩ }),
        ⟨healthy, parked, rfl, ?_⟩, Or.inr (by simp only [Single.step, same, made, if_true])⟩
      rw [free, Option.toList_none, Disk.writeAll_nil, Disk.faded_create, Disk.faded_create, shadows.settled free]
    · exact shadows.quiet parked (fail_handle _ _) (by simp [Single.step, same, made, landed_fail])
  · rename_i stream ok at_pc
    have same : single.landed.pc = .opening stream := at_pc
    have free := shadows.parked (by simp [hasHandle, at_pc])
    split_ifs at taken with made <;> cases taken
    · refine ⟨(other.openCreate, { single.landed with pc := .streaming stream, handle := .idle }),
        ⟨by rintro ⟨⟩, parked, rfl, ?_⟩, Or.inr (by simp only [Single.step, same, made, if_true])⟩
      change other.openCreate.faded = disk.openCreate.faded
      rw [Disk.faded_openCreate, Disk.faded_openCreate, shadows.settled free]
    · exact shadows.quiet parked (fail_handle _ _) (by simp [Single.step, same, made, landed_fail])
  · rename_i stream size at_pc
    cases taken
    have same : single.landed.pc = .streaming stream := at_pc
    exact shadows.quiet parked (onChunk_handle _ _) (by simp only [Single.step, same, landed_onChunk])
  · rename_i stream at_pc
    split_ifs at taken with empty
    cases taken
    exact shadows.quiet parked rfl (by simp [Single.step, landed, at_pc, empty])
  · rename_i stream at_pc
    cases taken
    exact shadows.quiet parked rfl (by simp [Single.step, landed, at_pc])
  · rename_i stream bytes at_pc
    split at taken
    · rename_i mode
      cases mode
    · rename_i idle
      cases taken
      exact shadows.passed at_pc idle parked
    · cases taken
  · split at taken
    · rename_i mode
      cases mode
    · rename_i broken
      exact absurd broken healthy
    · cases taken
  · rename_i stream ok at_pc
    have same : single.landed.pc = .flushing stream := at_pc
    split_ifs at taken with reports fine <;> cases taken
    · subst fine
      refine shadows.quiet parked (onFlushed_handle _ _) ?_
      simp [Single.step, same, Worker.flushReports, landed_onFlushed]
    · cases carried : single.handle <;> simp_all [Worker.flushReports]
  · rename_i stream ok at_pc
    have same : single.landed.pc = .syncing stream := at_pc
    split_ifs at taken with fine <;> cases taken
    · refine ⟨(other.sync, { single.landed with pc := .streaming { stream with bytesSinceFlush := 0 } }),
        ⟨healthy, parked, rfl, ?_⟩, Or.inr (by simp only [Single.step, same, fine, if_true])⟩
      dsimp only
      rw [Disk.faded_sync, seen, Disk.faded_writeAll, Disk.faded_writeAll, Disk.faded_sync]
    · exact shadows.quiet parked rfl (by simp [Single.step, landed, at_pc, fine])
  · rename_i total result synced at_pc
    split at taken <;> rename_i rests <;> cases taken
    exact shadows.closed at_pc rests parked
  · rename_i total readable at_pc
    have same : single.landed.pc = .measuring total := at_pc
    have free := shadows.parked (by simp [hasHandle, at_pc])
    have length : other.length = disk.length := Disk.length_seen (shadows.settled free)
    split_ifs at taken with fine <;> cases taken
    · exact shadows.quiet parked (onMeasured_handle _ _ _)
        (by simp only [Single.step, same, fine, if_true, length, landed_onMeasured])
    · exact shadows.quiet parked (fail_handle _ _) (by simp [Single.step, same, fine, landed_fail])
  · rename_i at_pc
    cases taken
    exact shadows.quiet parked rfl (by simp [Single.step, landed, at_pc])
  · rename_i at_pc
    split_ifs at taken with stopped
    cases taken
    exact shadows.quiet parked rfl (by simp [Single.step, landed, at_pc, stopped])
  · cases taken

end Single

end FastDownloader
