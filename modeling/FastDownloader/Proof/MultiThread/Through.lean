/-
This file follows the cells of the data file through a call whose writes take effect at once.
-/

import FastDownloader.Proof.Disk.Cells
import FastDownloader.Proof.MultiThread.Preservation

namespace FastDownloader

open Foundation

variable {right : Nat → UInt8 → Prop} {Text : Type}

/-- A ledger says what a cell is worth before its byte is handed over and what it is worth after. -/
structure Ledger (right : Nat → UInt8 → Prop) where
  todo : Nat → Cell → Prop
  done : Nat → Cell → Prop
  put : ∀ position cell byte, todo position cell → right position byte → done position (cell.put byte)
  sync_todo : ∀ position cell, todo position cell → todo position cell.sync
  sync_done : ∀ position cell, done position cell → done position cell.sync

/-- The ledger allows a failed write to leave some of its bytes behind. -/
def Ledger.Tears (ledger : Ledger right) : Prop :=
  ∀ position cell byte, ledger.todo position cell → right position byte → ledger.todo position (cell.put byte)

/-- The handed bytes of a worker are done, and the rest of its range is still to do. -/
def Recorded (ledger : Ledger right) (disk : Disk Text) (worker : Worker) : Prop :=
  ∀ position, worker.start ≤ position → position < worker.stop →
    (position < worker.handed → ledger.done position (disk.cell position)) ∧
      (worker.handed ≤ position → ledger.todo position (disk.cell position))

/-- A write of right bytes puts a right byte on top of each cell that it covers. -/
theorem Disk.cell_write_matches {disk : Disk Text} {offset position : Nat} {bytes : List UInt8}
    (present : disk.data.isSome = true) (suited : Matches right offset bytes)
    (covered : Covers offset bytes position) :
    ∃ byte, right position byte ∧ (disk.write offset bytes).cell position = (disk.cell position).put byte := by
  obtain ⟨reached, below⟩ := covered
  have found := List.getElem?_eq_getElem (by omega : position - offset < bytes.length)
  have fits := suited _ _ found
  rw [Nat.add_sub_cancel' reached] at fits
  exact ⟨_, fits, cell_write_inside present reached found⟩

namespace Recorded

variable {ledger : Ledger right} {disk after : Disk Text} {worker next : Worker}

theorem congr (recorded : Recorded ledger disk worker)
    (same : ∀ position, worker.start ≤ position → position < worker.stop →
      after.cell position = disk.cell position) : Recorded ledger after worker := by
  intro position lower upper
  rw [same position lower upper]
  exact recorded position lower upper

theorem sync (recorded : Recorded ledger disk worker) : Recorded ledger disk.sync worker := by
  intro position lower upper
  obtain ⟨done, todo⟩ := recorded position lower upper
  rcases disk.cell_sync position with same | synced
  · rw [same]
    exact ⟨done, todo⟩
  · rw [synced]
    exact ⟨fun below => ledger.sync_done _ _ (done below), fun above => ledger.sync_todo _ _ (todo above)⟩

/-- A step that rests keeps the record. -/
theorem rest (recorded : Recorded ledger disk worker) (start : next.start = worker.start)
    (stop : next.stop = worker.stop) (handed : next.handed = worker.handed) :
    Recorded ledger disk next := by
  unfold Recorded
  rw [start, stop, handed]
  exact recorded

/-- An accepted write moves its offsets from the open side to the done side. -/
theorem write {bytes : List UInt8} (recorded : Recorded ledger disk worker)
    (present : disk.data.isSome = true) (suited : Matches right worker.handed bytes)
    (start : next.start = worker.start) (stop : next.stop = worker.stop)
    (handed : next.handed = worker.handed + bytes.length) :
    Recorded ledger (disk.write worker.handed bytes) next := by
  intro position lower upper
  rw [start] at lower
  rw [stop] at upper
  rw [handed]
  obtain ⟨done, todo⟩ := recorded position lower upper
  by_cases covered : Covers worker.handed bytes position
  · obtain ⟨byte, fits, written⟩ := Disk.cell_write_matches present suited covered
    obtain ⟨reached, below⟩ := covered
    rw [written]
    exact ⟨fun _ => ledger.put _ _ _ (todo reached) fits, fun above => by omega⟩
  · rw [Disk.cell_write_outside covered]
    unfold Covers at covered
    exact ⟨fun _ => done (by omega), fun above => todo (by omega)⟩

/-- A failed write leaves its offsets on the open side. -/
theorem tear {bytes : List UInt8} (tears : ledger.Tears) (recorded : Recorded ledger disk worker)
    (present : disk.data.isSome = true) (suited : Matches right worker.handed bytes) :
    Recorded ledger (disk.write worker.handed bytes) worker := by
  intro position lower upper
  obtain ⟨done, todo⟩ := recorded position lower upper
  by_cases covered : Covers worker.handed bytes position
  · obtain ⟨byte, fits, written⟩ := Disk.cell_write_matches present suited covered
    have reached := covered.1
    rw [written]
    exact ⟨fun below => by omega, fun _ => tears _ _ _ (todo reached) fits⟩
  · rw [Disk.cell_write_outside covered]
    exact ⟨done, todo⟩

end Recorded

namespace Multi

variable {job : Job} {disk after : Disk Text} {multi next : Multi} {act : Act}

/-- A controlled call whose file agrees with the ledger and whose writes are never under way. -/
structure Tracked (ledger : Ledger right) (job : Job) (disk : Disk Text) (multi : Multi) : Prop where
  controlled : Controlled right job multi
  recorded : ∀ worker ∈ multi.workers, Recorded ledger disk worker
  opened : multi.phase = .sizing → disk.data.isSome = true
  sized : multi.phase.sized = true → disk.Sized job.fileSize
  landed : ∀ worker ∈ multi.workers, worker.handle.flight = none
  orphans : multi.orphans = []

variable {ledger : Ledger right}

/-- No background write of a worker is under way. -/
theorem Tracked.not_carried (tracked : Tracked ledger job disk multi) {index offset : Nat} {worker : Worker}
    {bytes : List UInt8} (present : multi.workers[index]? = some worker) :
    worker.handle ≠ .busy offset bytes := by
  intro carried
  have free := tracked.landed worker (List.mem_of_getElem? present)
  rw [carried] at free
  cases free

/-- No write of a dropped handle is under way. -/
theorem Tracked.not_dropped (tracked : Tracked ledger job disk multi) {index : Nat} {placed : Nat × List UInt8} :
    multi.orphans[index]? ≠ some placed := by
  intro present
  rw [tracked.orphans] at present
  cases present

/-- The call begins with a record of the chosen ranges. -/
theorem begin_tracked {ranges : List WorkerRange} (cover : ExactCover job.fileSize ranges) (nonempty : ranges ≠ [])
    (fresh : multi.saver.pc = .starting) (orphans : multi.orphans = [])
    (done : ∀ position, position < job.fileSize → Named ranges position →
      ledger.done position (disk.cell position))
    (todo : ∀ position, position < job.fileSize → ¬ Named ranges position →
      ledger.todo position (disk.cell position)) :
    Tracked ledger job disk (multi.begin ranges) where
  controlled := begin_controlled cover nonempty fresh
  recorded := by
    intro worker member position lower upper
    obtain ⟨range, present, rfl⟩ := List.mem_map.mp member
    have inside : position < job.fileSize :=
      Nat.lt_of_lt_of_le upper (cover.tiles.bounds range present).2.2
    refine ⟨fun below => done position inside ⟨range, present, lower, below⟩, fun above => ?_⟩
    refine todo position inside ?_
    rintro ⟨other, found, otherLower, otherUpper⟩
    obtain ⟨left, atLeft⟩ := List.getElem?_of_mem present
    obtain ⟨here, atHere⟩ := List.getElem?_of_mem found
    have reaches := (cover.within other found).2
    obtain rfl := cover.tiles.unique atLeft atHere ⟨lower, upper⟩ ⟨otherLower, by omega⟩
    obtain rfl := Option.some.inj (atLeft.symm.trans atHere)
    exact Nat.not_lt_of_le above otherUpper
  opened := by simp [Multi.begin]
  sized := by simp [Multi.begin, Phase.sized]
  landed := by
    intro worker member
    obtain ⟨range, _, rfl⟩ := List.mem_map.mp member
    rfl
  orphans := orphans

/-- A call that passed the final check has done every offset of the file. -/
theorem Tracked.complete (tracked : Tracked ledger job disk multi) (checked : multi.phase.checked = true)
    {position : Nat} (inside : position < job.fileSize) : ledger.done position (disk.cell position) := by
  obtain ⟨index, worker, present, lower, upper⟩ :=
    tracked.controlled.tiles.exists_tile (Nat.zero_le position) inside
  have member := List.mem_of_getElem? present
  have all := tracked.controlled.complete checked worker member
  exact (tracked.recorded worker member position lower upper).1 (all ▸ upper)

/-- Another worker writes only outside this range. -/
theorem Controlled.apart (controlled : Controlled right job multi) {index other position : Nat}
    {worker stranger : Worker} (different : index ≠ other) (present : multi.workers[index]? = some worker)
    (found : multi.workers[other]? = some stranger) (lower : stranger.start ≤ position)
    (upper : position < stranger.stop) : position < worker.start ∨ worker.stop ≤ position := by
  by_contra inside
  exact different (controlled.tiles.unique present found (by omega) ⟨lower, upper⟩)

/-- A write inside one range keeps the record of every other worker. -/
theorem Tracked.other (tracked : Tracked ledger job disk multi) {index other offset : Nat}
    {worker stranger : Worker} {bytes : List UInt8} (different : index ≠ other)
    (present : multi.workers[index]? = some worker) (found : multi.workers[other]? = some stranger)
    (lower : worker.start ≤ offset) (upper : offset + bytes.length ≤ worker.stop) :
    Recorded ledger (disk.write offset bytes) stranger := by
  refine (tracked.recorded stranger (List.mem_of_getElem? found)).congr fun position above below => ?_
  have outside := tracked.controlled.apart different present found above below
  refine Disk.cell_write_outside ?_
  unfold Covers
  omega

/-- A main step keeps every record, because it touches no cell of the file. -/
theorem Tracked.main (tracked : Tracked ledger job disk multi) {event : MainEvent} {phase : Phase}
    (move : MainMove job disk multi event after phase) : Tracked ledger job after { multi with phase := phase } := by
  have controlled := tracked.controlled.main move
  have synced : ∀ ok : Bool, ∀ worker ∈ multi.workers,
      Recorded ledger (if ok = true then disk.sync else disk) worker := by
    intro ok worker member
    split
    · exact (tracked.recorded worker member).sync
    · exact tracked.recorded worker member
  have syncedLength : ∀ ok : Bool, disk.Sized job.fileSize →
      (if ok = true then disk.sync else disk).Sized job.fileSize := by
    intro ok sized
    split
    · exact sized.sync
    · exact sized
  have discarded : ∀ ok : Bool, ∀ worker ∈ multi.workers,
      Recorded ledger (if ok = true then disk.deleteState else disk) worker := by
    intro ok worker member
    split <;> exact tracked.recorded worker member
  cases move with
  | created at_phase =>
      refine ⟨controlled, fun worker member => ?_, fun _ => rfl, (nomatch ·), tracked.landed,
        tracked.orphans⟩
      exact (tracked.recorded worker member).congr fun position _ _ => Disk.cell_openCreate position
  | resized at_phase =>
      refine ⟨controlled, fun worker member => ?_, (nomatch ·),
        fun _ => Disk.sized_setLen (tracked.opened at_phase), tracked.landed, tracked.orphans⟩
      refine (tracked.recorded worker member).congr fun position _ below => Disk.cell_setLen ?_
      exact Nat.lt_of_lt_of_le below (tracked.controlled.tiles.bounds worker member).2.2
  | settled ok at_phase =>
      have sized := tracked.sized (by simp [at_phase, Phase.sized])
      exact ⟨controlled, synced ok, (nomatch ·), fun _ => syncedLength ok sized, tracked.landed,
        tracked.orphans⟩
  | finalSync ok at_phase =>
      have sized := tracked.sized (by simp [at_phase, Phase.sized])
      exact ⟨controlled, synced ok, (nomatch ·), fun _ => syncedLength ok sized, tracked.landed,
        tracked.orphans⟩
  | join at_phase | reopened at_phase =>
      have sized := tracked.sized (by simp [at_phase, Phase.sized])
      exact ⟨controlled, tracked.recorded, (nomatch ·), fun _ => sized, tracked.landed,
        tracked.orphans⟩
  | conclude at_phase =>
      have sized := tracked.sized (by simp [at_phase, Phase.sized])
      refine ⟨controlled, tracked.recorded, fun sizing => ?_, fun _ => sized, tracked.landed, tracked.orphans⟩
      rcases verdict_cases job multi with ⟨_, same, _⟩ | same | ⟨same, _⟩ <;> simp [same] at sizing
  | notCreated | notResized | notReopened =>
      exact ⟨controlled, tracked.recorded, (nomatch ·), (nomatch ·),
        tracked.landed, tracked.orphans⟩
  | discarded ok error at_phase =>
      exact ⟨controlled, discarded ok, (nomatch ·), (nomatch ·),
        tracked.landed, tracked.orphans⟩
  | deleted ok at_phase =>
      have sized := tracked.sized (by simp [at_phase, Phase.sized])
      refine ⟨controlled, discarded ok, (nomatch ·), fun _ => ?_, tracked.landed,
        tracked.orphans⟩
      split <;> exact sized

variable [SerdeJson Text]

/-- A worker step keeps every record. A failed write needs a ledger that allows it. -/
theorem Tracked.worker (tracked : Tracked ledger job disk multi) {index : Nat} {event : WorkerEvent}
    {worker moved : Worker} {effect : Effect} (running : multi.phase = .running)
    (present : multi.workers[index]? = some worker)
    (facts : worker.StepFacts right .through event moved effect) (parked : moved.Parked)
    (tears : ledger.Tears ∨ ∀ kept, event ≠ .writeFailed kept) :
    Tracked ledger job (applyEffect disk { multi with workers := multi.workers.set index moved } effect).1
      (applyEffect disk { multi with workers := multi.workers.set index moved } effect).2 := by
  have change : Change right .through job disk multi (.worker index event) _ _ :=
    .worker index event worker moved effect running present facts parked
  have controlled := tracked.controlled.change change
  have member := List.mem_of_getElem? present
  have sound := tracked.controlled.sound worker member
  have recorded := tracked.recorded worker member
  have idle := tracked.landed worker member
  have sized := tracked.sized (by simp [running, Phase.sized])
  have noSizing : multi.phase = .sizing → disk.data.isSome = true := tracked.opened
  have rests : moved.handed = worker.handed → ∀ other ∈ multi.workers.set index moved,
      Recorded ledger disk other := fun handed =>
    forall_mem_set tracked.recorded (recorded.rest facts.start facts.stop handed)
  have landed : moved.handle.flight = none → ∀ other ∈ multi.workers.set index moved,
      other.handle.flight = none := fun free => forall_mem_set tracked.landed free
  cases facts.moved with
  | control still flight =>
      exact ⟨controlled, rests still.handed, noSizing, fun _ => sized, landed (flight.trans idle),
        tracked.orphans⟩
  | stored _ _ handed _ flight | marked _ _ _ _ handed _ flight =>
      exact ⟨controlled, rests handed, noSizing, fun _ => sized, landed (flight.trans idle), tracked.orphans⟩
  | counted handed _ _ flight =>
      exact ⟨controlled, rests handed, noSizing, fun _ => sized, landed (flight.trans idle), tracked.orphans⟩
  | passed bytes mode => cases mode
  | dropped offset bytes _ carried =>
      rw [idle] at carried
      cases carried
  | wrote bytes mode accepts flight =>
      have written := recorded.write sized.isSome accepts.suited facts.start facts.stop accepts.handed
      refine ⟨controlled, fun other found => ?_, fun sizing => ?_, fun _ => sized.write ?_,
        landed (flight.trans idle), tracked.orphans⟩
      · rcases mem_set_cases found with rfl | ⟨place, different, atPlace⟩
        · exact written
        · exact tracked.other different present atPlace sound.start_le_handed accepts.bounded
      · simp [applyEffect, running] at sizing
      · exact Nat.le_trans accepts.bounded (tracked.controlled.tiles.bounds worker member).2.2
  | torn bytes kept mode failed suited bounded still flight =>
      have allowed := tears.resolve_right fun never => never kept failed
      have written := (recorded.tear allowed sized.isSome suited).rest facts.start facts.stop still.handed
      refine ⟨controlled, fun other found => ?_, fun sizing => ?_, fun _ => sized.write ?_,
        landed flight, tracked.orphans⟩
      · rcases mem_set_cases found with rfl | ⟨place, different, atPlace⟩
        · exact written
        · exact tracked.other different present atPlace sound.start_le_handed bounded
      · simp [applyEffect, running] at sizing
      · exact Nat.le_trans bounded (tracked.controlled.tiles.bounds worker member).2.2

/-- Every transition keeps a tracked call tracked. -/
theorem Tracked.change (tracked : Tracked ledger job disk multi)
    (change : Change right .through job disk multi act after next)
    (tears : ledger.Tears ∨ ∀ index kept, act ≠ .worker index (.writeFailed kept)) :
    Tracked ledger job after next := by
  have controlled := tracked.controlled.change change
  cases change with
  | cancelled =>
      exact ⟨controlled, tracked.recorded, tracked.opened, tracked.sized, tracked.landed, tracked.orphans⟩
  | main event _ phase move => exact tracked.main move
  | worker index event worker moved effect running present facts parked =>
      refine tracked.worker running present facts parked (tears.imp_right fun never kept same => ?_)
      exact never index kept (same ▸ rfl)
  | saver event stopping moved effect during move =>
      have sized : multi.phase.sized = true → (applySaverEffect disk effect).Sized job.fileSize := by
        intro late
        have sized := tracked.sized late
        cases effect with
        | none | save => exact sized
        | sync => exact sized.sync
      have opened : multi.phase = .sizing → (applySaverEffect disk effect).data.isSome = true := by
        intro sizing
        rw [sizing] at during
        cases stopping <;> cases during
      refine ⟨controlled, fun worker member => ?_, opened, sized, tracked.landed, tracked.orphans⟩
      cases effect with
      | none | save => exact tracked.recorded worker member
      | sync => exact (tracked.recorded worker member).sync
  | landed _ _ _ _ present carried | lost _ _ _ _ _ present carried =>
      exact absurd carried (tracked.not_carried present)
  | orphanLanded _ _ _ present | orphanLost _ _ _ _ present => exact absurd present tracked.not_dropped

/-- One step of the call keeps it tracked. -/
theorem Tracked.step (tracked : Tracked ledger job disk multi) (answered : multi.Answered right act)
    (tears : ledger.Tears ∨ ∀ index kept, act ≠ .worker index (.writeFailed kept))
    {last : Disk Text × Multi} (taken : Multi.step .through job (disk, multi) act = some last) :
    Tracked ledger job last.1 last.2 :=
  tracked.change (tracked.controlled.step_change answered taken) tears

end Multi

end FastDownloader
