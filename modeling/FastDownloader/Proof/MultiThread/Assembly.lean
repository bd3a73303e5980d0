/-
This file proves that one call assembles the file correctly, for every behaviour of its servers.
-/

import FastDownloader.Proof.MultiThread.Through

namespace FastDownloader

open Foundation

/-- The byte is the one of the content at this offset. No byte is wrong behind the end. -/
def ByteOf (content : List UInt8) (position : Nat) (byte : UInt8) : Prop :=
  ∀ expected, content[position]? = some expected → byte = expected

instance (content : List UInt8) (position : Nat) (byte : UInt8) : Decidable (ByteOf content position byte) :=
  inferInstanceAs (Decidable (∀ expected ∈ content[position]?, byte = expected))

/-- This ledger asks that every handed byte is right in the file. -/
def rightBytes (right : Nat → UInt8 → Prop) : Ledger right where
  todo := fun _ _ => True
  done := fun position cell => right position cell.byte
  put := fun _ _ _ _ suited => suited
  sync_todo := fun _ _ _ => trivial
  sync_done := fun _ _ done => done

theorem rightBytes_tears (right : Nat → UInt8 → Prop) : (rightBytes right).Tears := fun _ _ _ _ _ => trivial

namespace Multi

variable {Text : Type} {right : Nat → UInt8 → Prop} {ledger : Ledger right}
  {job : Job} {disk : Disk Text} {multi : Multi} {content : List UInt8}

theorem outcome_iff (multi : Multi) (result : Except Error Unit) :
    multi.outcome = some result ↔ multi.phase = .returned result := by
  unfold outcome
  split <;> simp_all

/-- The whole file is right once the call has passed its final check. -/
theorem Tracked.contents (tracked : Tracked (rightBytes (ByteOf content)) job disk multi)
    (size : job.fileSize = content.length) (returned : multi.phase = .returned (.ok ())) :
    disk.contents = some content := by
  have sized := tracked.sized (by simp [returned, Phase.sized])
  rw [size] at sized
  refine sized.contents fun position byte present => ?_
  have inside : position < job.fileSize := size ▸ (List.getElem?_eq_some_iff.mp present).1
  exact tracked.complete (by simp [returned, Phase.checked]) inside byte present

/-- Any answer carries right bytes when every byte counts as right. -/
theorem answered_any (multi : Multi) (act : Act) : multi.Answered (fun _ _ => True) act := by
  cases act with
  | worker index event =>
      intro worker _
      cases event with
      | reply answer => cases answer <;> simp [Worker.Answered, Matches]
      | _ => trivial
  | _ => trivial

variable [SerdeJson Text]

/-- A worker step writes inside the range of its worker. -/
theorem Tracked.frame (tracked : Tracked ledger job disk multi) {index : Nat} {event : WorkerEvent}
    {worker : Worker} {next : Disk Text × Multi} (present : multi.workers[index]? = some worker)
    (answered : multi.Answered right (.worker index event))
    (taken : Multi.step .through job (disk, multi) (.worker index event) = some next) {position : Nat}
    (outside : position < worker.start ∨ worker.stop ≤ position) :
    next.1.cell position = disk.cell position := by
  have change := tracked.controlled.step_change answered taken
  generalize next.1 = after at change
  generalize next.2 = moved at change
  cases change with
  | worker index event other moved effect running found facts parked =>
      obtain rfl := Option.some.inj (present.symm.trans found)
      have sound := tracked.controlled.sound worker (List.mem_of_getElem? present)
      have floor := sound.start_le_handed
      cases facts.moved with
      | control | stored | counted | marked | passed | dropped => rfl
      | wrote bytes _ accepts =>
          have bounded := accepts.bounded
          exact Disk.cell_write_outside (by unfold Covers; omega)
      | torn bytes _ _ _ _ bounded => exact Disk.cell_write_outside (by unfold Covers; omega)

/-- One call assembles the file. Each worker keeps to its own range, and a call that returns without an error
leaves the exact content, whatever the servers answer and however the workers interleave. -/
theorem assembles {ranges : List WorkerRange} {threadCount minChunk : Nat} {acts : List Act}
    {last : Disk Text × Multi} (size : job.info.size = some content.length)
    (chosen : splitWorkers content.length threadCount minChunk = some ranges ∨
      ∃ state : DownloadState, state.validate = .ok () ∧ state.fileSize = content.length ∧
        state.workers = ranges ∧
        ∀ position, Named ranges position → content[position]? = some (disk.cell position).byte)
    (run : Run (Multi.step .through job) (fun state act => state.2.Answered (ByteOf content) act)
      (disk, (Multi.start job).begin ranges) acts last) :
    (∀ index event worker next, last.2.workers[index]? = some worker →
      Multi.step .through job last (.worker index event) = some next →
      ∀ position, position < worker.start ∨ worker.stop ≤ position →
        next.1.cell position = last.1.cell position) ∧
      (last.2.outcome = some (.ok ()) → last.1.contents = some content) := by
  have fileSize : job.fileSize = content.length := by simp [Job.fileSize, size]
  have choice : ExactCover job.fileSize ranges ∧ ranges ≠ [] ∧
      ∀ position, Named ranges position → content[position]? = some (disk.cell position).byte := by
    rw [fileSize]
    rcases chosen with split | ⟨state, valid, length, rfl, correct⟩
    · obtain ⟨cover, fresh⟩ := splitWorkers_cover split
      exact ⟨cover, splitWorkers_ne_nil split,
        fun position named => absurd named (not_named_of_fresh fresh position)⟩
    · obtain ⟨_, nonempty, cover⟩ := (validate_ok_iff state).mp valid
      exact ⟨length ▸ cover, nonempty, correct⟩
  obtain ⟨cover, nonempty, correct⟩ := choice
  constructor
  · -- The frame does not depend on what the servers send, so any byte counts as right here.
    have tracked : Tracked (rightBytes fun _ _ => True) job last.1 last.2 := by
      refine run.invariant (fun state => Tracked (rightBytes fun _ _ => True) job state.1 state.2) ?_ ?_
      · exact fun before act after tracked _ taken =>
          tracked.step (answered_any _ act) (Or.inl (rightBytes_tears _)) taken
      · exact begin_tracked cover nonempty rfl rfl (fun _ _ _ => trivial) (fun _ _ _ => trivial)
    exact fun index event worker next present taken position outside =>
      tracked.frame present (answered_any _ _) taken outside
  · intro returned
    refine Tracked.contents ?_ fileSize ((outcome_iff _ _).mp returned)
    refine run.invariant (fun state => Tracked (rightBytes (ByteOf content)) job state.1 state.2) ?_ ?_
    · exact fun before act after tracked answered taken =>
        tracked.step answered (Or.inl (rightBytes_tears _)) taken
    · refine begin_tracked cover nonempty rfl rfl (fun position _ named expected present => ?_)
        (fun _ _ _ => trivial)
      exact Option.some.inj ((correct position named).symm.trans present)

/-- A resource of one byte with a strong tag. -/
def oneByte : Job where
  info := ⟨"u", some 1, by simp, true, some "a", none, none⟩
  threadCount := 2
  cfg := {}

/-- A server sends the one byte, and the call runs to its end. -/
def oneByteActs : List Act :=
  [.main (.created true), .main (.resized true), .main (.synced true), .worker 0 .check,
    .worker 0 (.reply (some ⟨206, none, none, [7]⟩)), .worker 0 (.opened true), .worker 0 (.chunk 1),
    .worker 0 .wrote, .worker 0 .store, .worker 0 .count, .worker 0 (.flushed true), .worker 0 .check,
    .main .join, .saver (.opened true), .saver .halt, .saver .load, .saver .load, .saver (.saved true),
    .main .conclude, .main (.created true), .main (.synced true), .main (.deleted true)]

def oneByteRun : Option (Disk DownloadState × Multi) :=
  replay (Multi.step .through oneByte) (⟨none, none⟩, (Multi.start oneByte).begin [⟨0, 0, 1⟩]) oneByteActs

theorem assembles_oneByte : (oneByteRun.get rfl).1.contents = some [7] := by
  have split : splitWorkers [(7 : UInt8)].length 2 1 = some [⟨0, 0, 1⟩] := rfl
  have run : Run (Multi.step .through oneByte) (fun state act => state.2.Answered (ByteOf [7]) act)
      (⟨none, none⟩, (Multi.start oneByte).begin [⟨0, 0, 1⟩]) oneByteActs (oneByteRun.get rfl) :=
    run_of_replay (by decide +kernel) (Option.some_get _).symm
  exact (assembles rfl (Or.inl split) run).2 rfl

end Multi

end FastDownloader
