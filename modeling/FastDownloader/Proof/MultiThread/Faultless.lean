/-
This file proves that a multi-thread call which meets no fault comes to its end and leaves the whole content.
-/

import FastDownloader.Foundation.Settling
import FastDownloader.Proof.MultiThread.Liveness
import FastDownloader.Proof.Worker.Healthy

namespace FastDownloader

open Foundation

/-- The checkpoints that the state task still writes once the workers have joined. -/
def Saver.rank (count : Nat) (saver : Saver) : Nat :=
  match saver.pc with
  | .finished => 0
  | .saving _ => if saver.final then 1 else count + 6
  | .syncing _ => if saver.final then 2 else count + 7
  | .loading loaded => (if saver.final then 3 else count + 8) + (count - loaded.length)
  | .idle => count + 5
  | .starting => 2 * count + 9

theorem Saver.rank_le (count : Nat) (saver : Saver) : saver.rank count ≤ 2 * count + 9 := by
  unfold rank
  split <;> (try split_ifs) <;> omega

/-- Each step of the stopping state task lowers its rank. -/
theorem SaverMove.falls {job : Job} {workers : List Worker} {saver next : Saver} {event : SaverEvent}
    {effect : SaverEffect} (move : SaverMove job workers true saver event next effect) :
    next.rank workers.length < saver.rank workers.length := by
  cases move with
  | broken ok at_pc | opened ok at_pc =>
      simp only [Saver.rank, at_pc]
      omega
  | tick at_pc running => cases running
  | halt at_pc =>
      simp only [Saver.rank, at_pc, if_true, List.length_nil]
      omega
  | load loaded worker at_pc present =>
      have inside := (List.getElem?_eq_some_iff.mp present).1
      simp only [Saver.rank, at_pc, List.length_append, List.length_singleton]
      omega
  | take loaded at_pc complete pc next =>
      subst next
      split_ifs
      · simp only [Saver.rank, at_pc]
        split_ifs <;> omega
      · simp only [Saver.rank, at_pc]
        split_ifs <;> omega
  | synced ok state at_pc =>
      simp only [Saver.rank, at_pc]
      split_ifs <;> omega
  | saved ok state at_pc =>
      simp only [Saver.rank, at_pc]
      cases saver.final <;> simp

/-- The stopping state task can go on until it has finished. -/
theorem Saver.moves (job : Job) (workers : List Worker) {saver : Saver} (pending : saver.pc ≠ .finished) :
    ∃ event : SaverEvent, (∀ ok, event = .opened ok ∨ event = .synced ok ∨ event = .saved ok → ok = true) ∧
      (saver.step job workers true event).isSome = true := by
  cases at_pc : saver.pc with
  | starting =>
      refine ⟨.opened true, by simp, ?_⟩
      simp only [Saver.step, at_pc]
      split_ifs <;> rfl
  | idle => exact ⟨.halt, by simp, by simp [Saver.step, at_pc]⟩
  | loading loaded =>
      refine ⟨.load, by simp, ?_⟩
      simp only [Saver.step, at_pc]
      split
      · rfl
      · split_ifs <;> rfl
  | syncing => exact ⟨.synced true, by simp, by simp [Saver.step, at_pc]⟩
  | saving => exact ⟨.saved true, by simp, by simp [Saver.step, at_pc]⟩
  | finished => exact absurd at_pc pending

/-- The first offset that the file need not hold yet, although the worker has handed over more. -/
def Worker.reached (worker : Worker) : Nat := (worker.handle.flight.map Prod.fst).getD worker.handed

/-- The file holds the handed bytes of a worker, except those of its background write. -/
structure Laid {Text : Type} (content : List UInt8) (disk : Disk Text) (worker : Worker) : Prop where
  flight : ∀ offset bytes, worker.handle.flight = some (offset, bytes) →
    worker.start ≤ offset ∧ offset + bytes.length = worker.handed ∧ Matches (ByteOf content) offset bytes
  bytes : ∀ position, worker.start ≤ position → position < worker.reached →
    ByteOf content position (disk.cell position).byte

namespace Laid

variable {Text : Type} {content : List UInt8} {disk after : Disk Text} {worker next : Worker}

theorem reached_le (laid : Laid content disk worker) : worker.reached ≤ worker.handed := by
  unfold Worker.reached
  cases flying : worker.handle.flight with
  | none => exact Nat.le_refl _
  | some placed =>
      obtain ⟨-, ends, -⟩ := laid.flight placed.1 placed.2 flying
      simp only [Option.map_some, Option.getD_some]
      omega

/-- Only the bytes of the file matter. -/
theorem congr (laid : Laid content disk worker)
    (same : ∀ position, worker.start ≤ position → position < worker.handed →
      (after.cell position).byte = (disk.cell position).byte) : Laid content after worker := by
  refine ⟨laid.flight, fun position lower upper => ?_⟩
  rw [same position lower (Nat.lt_of_lt_of_le upper laid.reached_le)]
  exact laid.bytes position lower upper

/-- A step that hands over nothing and keeps the background write. -/
theorem rest (laid : Laid content disk worker) (start : next.start = worker.start)
    (handed : next.handed = worker.handed) (flight : next.handle.flight = worker.handle.flight) :
    Laid content disk next := by
  refine ⟨?_, ?_⟩
  · rw [start, handed, flight]
    exact laid.flight
  · unfold Worker.reached
    rw [start, handed, flight]
    exact laid.bytes

/-- Bytes that take effect at once lie behind all that was handed over before. -/
theorem wrote (laid : Laid content disk worker) (present : disk.data.isSome = true) {bytes : List UInt8}
    (suited : Matches (ByteOf content) worker.handed bytes) (start : next.start = worker.start)
    (handed : next.handed = worker.handed + bytes.length) (idle : worker.handle.flight = none)
    (flight : next.handle.flight = none) : Laid content (disk.write worker.handed bytes) next := by
  refine ⟨fun _ _ carried => (nomatch flight.symm.trans carried), fun position lower upper => ?_⟩
  simp only [Worker.reached, flight, Option.map_none, Option.getD_none, handed] at upper
  rw [start] at lower
  by_cases covered : Covers worker.handed bytes position
  · obtain ⟨byte, fits, written⟩ := Disk.cell_write_matches present suited covered
    rw [written]
    exact fits
  · rw [Disk.cell_write_outside covered]
    refine laid.bytes position lower ?_
    simp only [Worker.reached, idle, Option.map_none, Option.getD_none]
    unfold Covers at covered
    omega

/-- A new background write holds back the bytes that it carries. -/
theorem passed (laid : Laid content disk worker) {bytes : List UInt8}
    (suited : Matches (ByteOf content) worker.handed bytes) (begun : worker.start ≤ worker.handed)
    (start : next.start = worker.start) (handed : next.handed = worker.handed + bytes.length)
    (idle : worker.handle.flight = none) (flight : next.handle.flight = some (worker.handed, bytes)) :
    Laid content disk next := by
  refine ⟨fun offset carried same => ?_, fun position lower upper => ?_⟩
  · obtain ⟨rfl, rfl⟩ := Prod.mk.inj (Option.some.inj (flight.symm.trans same))
    exact ⟨start ▸ begun, handed.symm, suited⟩
  · simp only [Worker.reached, flight, Option.map_some, Option.getD_some] at upper
    refine laid.bytes position (start ▸ lower) ?_
    simpa only [Worker.reached, idle, Option.map_none, Option.getD_none] using upper

/-- A background write that lands fills the place that was held back. -/
theorem landed (laid : Laid content disk worker) (present : disk.data.isSome = true) {offset : Nat}
    {bytes : List UInt8} (carried : worker.handle.flight = some (offset, bytes)) {handle : Handle}
    (free : handle.flight = none) :
    Laid content (disk.write offset bytes) { worker with handle := handle } := by
  obtain ⟨begun, ends, suited⟩ := laid.flight offset bytes carried
  refine ⟨fun _ _ flying => (nomatch free.symm.trans flying), fun position lower upper => ?_⟩
  simp only [Worker.reached, free, Option.map_none, Option.getD_none] at upper
  by_cases covered : Covers offset bytes position
  · obtain ⟨byte, fits, written⟩ := Disk.cell_write_matches present suited covered
    rw [written]
    exact fits
  · rw [Disk.cell_write_outside covered]
    refine laid.bytes position lower ?_
    simp only [Worker.reached, carried, Option.map_some, Option.getD_some]
    unfold Covers at covered
    omega

end Laid

namespace Multi

/-- Nothing fails, nobody cancels, and the server answers every request. -/
def Faultless (content : List UInt8) (multi : Multi) : Act → Prop
  | .main (.load ok) | .main (.created ok) | .main (.resized ok) | .main (.synced ok) | .main (.deleted ok)
  | .saver (.opened ok) | .saver (.synced ok) | .saver (.saved ok) => ok = true
  | .worker index event => ∀ worker ∈ multi.workers[index]?, worker.Faultless content event
  | .main .join | .main .conclude | .saver .tick | .saver .halt | .saver .load | .land _ => True
  | .cancel | .lose _ _ | .landOrphan _ | .loseOrphan _ _ => False

/-- The state task works as long as the workers do, and a server may send empty chunks. -/
def Idle (multi : Multi) : Act → Prop
  | .saver _ => multi.phase = .running
  | .worker _ event => event = .chunk 0
  | _ => False

/-- The call is on its way to success. -/
def onward (multi : Multi) : Bool :=
  match multi.phase with
  | .opening | .sizing | .settling | .running | .stopping | .reopening | .finalSync | .deleting
  | .returned (.ok ()) => true
  | _ => false

/-- The rank adds up the workers and counts the phases that are left. -/
def rank (multi : Multi) : Nat :=
  (multi.workers.map Worker.rank).sum + match multi.phase with
  | .opening => 2 * multi.workers.length + 28
  | .sizing => 2 * multi.workers.length + 27
  | .settling => 2 * multi.workers.length + 26
  | .running => 2 * multi.workers.length + 25
  | .stopping => multi.saver.rank multi.workers.length + 15
  | .reopening => 3
  | .finalSync => 2
  | .deleting => 1
  | _ => 0

/-- A call without a fault has handed over only right bytes, and the file holds them as soon as they have landed. -/
structure Steady {Text : Type} (content : List UInt8) (io : FileIo) (job : Job) (disk : Disk Text) (multi : Multi) :
    Prop where
  controlled : Controlled (ByteOf content) job multi
  healthy : ∀ worker ∈ multi.workers, worker.Healthy
  laid : ∀ worker ∈ multi.workers, Laid content disk worker
  still : io = .through → ∀ worker ∈ multi.workers, worker.handle.flight = none
  early : multi.phase.sized = false → ∀ worker ∈ multi.workers, worker.handle.flight = none
  opened : multi.phase = .sizing → disk.data.isSome = true
  sized : multi.phase.sized = true → disk.Sized job.fileSize
  onward : multi.onward = true
  calm : multi.cancelled = false

variable {Text : Type} {content : List UInt8} {io : FileIo} {job : Job} {disk after : Disk Text}
  {multi : Multi} {act : Act} {next : Disk Text × Multi}

/-- A worker without a fault gets right bytes. -/
theorem answered_of_faultless {worker : Worker} {event : WorkerEvent}
    (faultless : worker.Faultless content event) : worker.Answered (ByteOf content) event := by
  cases event with
  | reply answer =>
      cases answer with
      | none => trivial
      | some response =>
          intro pos asked _
          rw [(faultless pos asked).2]
          exact served_matches content pos worker.stop
  | _ => trivial

/-- What one step without a fault does to a steady call. -/
structure Proceeds (content : List UInt8) (io : FileIo) (job : Job) (multi : Multi) (act : Act)
    (next : Disk Text × Multi) : Prop where
  steady : Steady content io job next.1 next.2
  falls : next.2.rank < multi.rank ∨ (multi.Idle act ∧ next.2.rank ≤ multi.rank)

/-- A new phase and a change of the disk that keeps the bytes of the file. -/
theorem Steady.jump (steady : Steady content io job disk multi) {phase : Phase}
    (controlled : Controlled (ByteOf content) job { multi with phase := phase })
    (same : ∀ position, position < job.fileSize → (after.cell position).byte = (disk.cell position).byte)
    (later : multi.phase.sized = true → phase.sized = true)
    (opened : phase = .sizing → after.data.isSome = true) (sized : phase.sized = true → after.Sized job.fileSize)
    (onward : ({ multi with phase := phase } : Multi).onward = true) :
    Steady content io job after { multi with phase := phase } := by
  refine ⟨controlled, steady.healthy, fun worker member => ?_, steady.still, fun unsized => ?_, opened, sized, onward,
    steady.calm⟩
  swap
  · refine steady.early (Bool.eq_false_iff.mpr fun before => ?_)
    rw [later before] at unsized
    cases unsized
  refine (steady.laid worker member).congr fun position _ below => same position ?_
  have inside := (steady.controlled.tiles.bounds worker member).2.2
  have reached := (steady.controlled.sound worker member).handed_le
  omega

/-- A call whose file has its length goes on to a later phase, and the disk keeps the bytes and the length. -/
theorem Steady.pass (steady : Steady content io job disk multi) {phase : Phase}
    (controlled : Controlled (ByteOf content) job { multi with phase := phase }) (before : multi.phase.sized = true)
    (later : phase.sized = true) (onward : ({ multi with phase := phase } : Multi).onward = true)
    (same : ∀ position, (after.cell position).byte = (disk.cell position).byte)
    (kept : disk.Sized job.fileSize → after.Sized job.fileSize) :
    Steady content io job after { multi with phase := phase } := by
  apply steady.jump controlled (fun position _ => same position) (fun _ => later) _ (fun _ => kept (steady.sized before))
    onward
  rintro rfl
  cases later

/-- Finished workers of a steady call have ended well. -/
theorem Steady.fulfilled (steady : Steady content io job disk multi)
    (finished : ∀ worker ∈ multi.workers, worker.finished = true) :
    List.Forall₂ Fulfilled (multi.workers.map Worker.range) multi.workers := by
  refine List.forall₂_map_left_iff.mpr (List.forall₂_same.mpr fun worker member => ?_)
  obtain ⟨ended, handed⟩ := (steady.healthy worker member).ended (steady.controlled.sound worker member)
    (finished worker member)
  exact ⟨ended, rfl, rfl, handed⟩

/-- A steady call passes the final check. -/
theorem Steady.verdict (steady : Steady content io job disk multi) (at_phase : multi.phase = .stopping) :
    multi.verdict job = .reopening := by
  have all := steady.fulfilled (steady.controlled.joined (by rw [at_phase]; rfl))
  unfold Multi.verdict concludeWith
  rw [collect_fulfilled all]
  simp [steady.controlled.counted all]

/-- A main step without a fault goes on to the next phase. -/
theorem Steady.main (steady : Steady content io job disk multi) {event : MainEvent} {phase : Phase}
    (faultless : multi.Faultless content (.main event)) (move : MainMove job disk multi event after phase) :
    Proceeds content io job multi (.main event) (after, { multi with phase := phase }) := by
  have controlled : Controlled (ByteOf content) job { multi with phase := phase } := steady.controlled.main move
  cases move with
  | created at_phase =>
      refine ⟨steady.jump controlled (fun position _ => ?_) (by simp [at_phase, Phase.sized]) (fun _ => rfl)
          (by rintro ⟨⟩) rfl,
        Or.inl ?_⟩
      · rw [Disk.cell_openCreate]
      · simp only [rank, at_phase]
        omega
  | notCreated | notResized | notReopened => cases faultless
  | resized at_phase =>
      have present := steady.opened at_phase
      refine ⟨steady.jump controlled (fun position inside => ?_) (fun _ => rfl) (by rintro ⟨⟩)
        (fun _ => Disk.sized_setLen present) rfl, Or.inl ?_⟩
      · rw [Disk.cell_setLen inside]
      · simp only [rank, at_phase]
        omega
  | settled ok at_phase =>
      obtain rfl : ok = true := faultless
      have before : multi.phase.sized = true := by rw [at_phase]; rfl
      refine ⟨steady.pass controlled before rfl rfl Disk.byte_sync Disk.Sized.sync, Or.inl ?_⟩
      simp only [rank, at_phase]
      omega
  | join at_phase finished =>
      have before : multi.phase.sized = true := by rw [at_phase]; rfl
      refine ⟨steady.pass controlled before rfl rfl (fun _ => rfl) id, Or.inl ?_⟩
      have bounded := Saver.rank_le multi.workers.length multi.saver
      simp only [rank, at_phase]
      omega
  | conclude at_phase saved =>
      rw [steady.verdict at_phase] at controlled ⊢
      have before : multi.phase.sized = true := by rw [at_phase]; rfl
      refine ⟨steady.pass controlled before rfl rfl (fun _ => rfl) id, Or.inl ?_⟩
      simp only [rank, at_phase]
      omega
  | discarded ok error at_phase =>
      have onward := steady.onward
      simp [Multi.onward, at_phase] at onward
  | reopened at_phase =>
      have before : multi.phase.sized = true := by rw [at_phase]; rfl
      refine ⟨steady.pass controlled before rfl rfl (fun _ => rfl) id, Or.inl ?_⟩
      simp only [rank, at_phase]
      omega
  | finalSync ok at_phase =>
      obtain rfl : ok = true := faultless
      have before : multi.phase.sized = true := by rw [at_phase]; rfl
      refine ⟨steady.pass controlled before rfl rfl Disk.byte_sync Disk.Sized.sync, Or.inl ?_⟩
      simp only [rank, at_phase]
      omega
  | deleted ok at_phase =>
      obtain rfl : ok = true := faultless
      have before : multi.phase.sized = true := by rw [at_phase]; rfl
      refine ⟨steady.pass controlled before rfl rfl (fun _ => rfl) id, Or.inl ?_⟩
      simp only [rank, at_phase]
      omega

/-- One worker moves on and writes at most inside its own range. -/
theorem Steady.replace (steady : Steady content io job disk multi) {index : Nat} {worker moved : Worker} {next : Multi}
    (present : multi.workers[index]? = some worker) (controlled : Controlled (ByteOf content) job next)
    (same : next.workers = multi.workers.set index moved ∧ next.phase = multi.phase ∧ next.cancelled = multi.cancelled)
    (healthy : moved.Healthy) (laid : Laid content after moved)
    (still : io = .through ∨ multi.phase.sized = false → moved.handle.flight = none)
    (outside : ∀ position, position < worker.start ∨ worker.stop ≤ position → after.cell position = disk.cell position)
    (opened : disk.data.isSome = true → after.data.isSome = true)
    (sized : disk.Sized job.fileSize → after.Sized job.fileSize) : Steady content io job after next := by
  obtain ⟨workers, phase, cancelled⟩ := same
  refine ⟨controlled, ?_, fun stranger member => ?_, fun through => ?_, fun unsized => ?_, ?_, ?_, ?_, ?_⟩
  · rw [workers]
    exact forall_mem_set steady.healthy healthy
  · rw [workers] at member
    rcases mem_set_cases member with rfl | ⟨other, different, found⟩
    · exact laid
    · have other_member := List.mem_of_getElem? found
      refine (steady.laid stranger other_member).congr fun position lower below => ?_
      have reached := (steady.controlled.sound stranger other_member).handed_le
      rw [outside position (steady.controlled.apart different present found lower (by omega))]
  · rw [workers]
    exact forall_mem_set (steady.still through) (still (Or.inl through))
  · rw [phase] at unsized
    rw [workers]
    exact forall_mem_set (steady.early unsized) (still (Or.inr unsized))
  · rw [phase]
    exact fun at_phase => opened (steady.opened at_phase)
  · rw [phase]
    exact fun at_phase => sized (steady.sized at_phase)
  · have onward := steady.onward
    unfold Multi.onward at onward ⊢
    rwa [phase]
  · rw [cancelled]
    exact steady.calm

/-- The rank of the call follows the rank of one worker. -/
theorem rank_replace {index : Nat} {worker moved : Worker} {next : Multi} (present : multi.workers[index]? = some worker)
    (workers : next.workers = multi.workers.set index moved)
    (same : next.phase = multi.phase ∧ next.saver = multi.saver) :
    next.rank + worker.rank = multi.rank + moved.rank := by
  have total := sum_map_set Worker.rank moved present
  unfold rank
  rw [same.1, same.2, workers, List.length_set]
  omega

/-- A worker step without a fault takes its worker further. -/
theorem Steady.worker [SerdeJson Text] (steady : Steady content io job disk multi)
    (size : job.fileSize = content.length) {index : Nat} {event : WorkerEvent} {worker moved : Worker} {effect : Effect}
    (running : multi.phase = .running)
    (present : multi.workers[index]? = some worker) (faultless : worker.Faultless content event)
    (stepped : worker.step io job.cfg job.info.ifRangeValidator multi.cancelled event = some (moved, effect)) :
    Proceeds content io job multi (.worker index event)
      (applyEffect disk { multi with workers := multi.workers.set index moved } effect) := by
  have member := List.mem_of_getElem? present
  have sound := steady.controlled.sound worker member
  have parked := steady.controlled.parked worker member
  have laid := steady.laid worker member
  have inside : worker.stop ≤ content.length := size ▸ (steady.controlled.tiles.bounds worker member).2.2
  have facts := Worker.step_facts sound parked (answered_of_faultless faultless) stepped
  have begun : multi.phase.sized = true := by rw [running]; rfl
  have opened := (steady.sized begun).isSome
  have through : io = .through ∨ multi.phase.sized = false → io = .through := by
    rw [begun]
    rintro (same | unsized)
    · exact same
    · cases unsized
  have change : Change (ByteOf content) io job disk multi (.worker index event)
      (applyEffect disk { multi with workers := multi.workers.set index moved } effect).1
      (applyEffect disk { multi with workers := multi.workers.set index moved } effect).2 :=
    .worker index event worker moved effect running present facts (Worker.step_parked parked stepped)
  have controlled := steady.controlled.change change
  rw [steady.calm] at stepped
  obtain ⟨healthy, kept, falls⟩ := Worker.step_advances sound (steady.healthy worker member)
    (fun through => steady.still through worker member) inside faultless stepped
  have lower : ∀ next : Multi, next.workers = multi.workers.set index moved →
      next.phase = multi.phase ∧ next.saver = multi.saver →
      next.rank < multi.rank ∨ (multi.Idle (.worker index event) ∧ next.rank ≤ multi.rank) := by
    intro next workers same
    have moves := rank_replace present workers same
    rcases falls with below | ⟨empty, level⟩
    · exact Or.inl (by omega)
    · exact Or.inr ⟨empty, by omega⟩
  -- Most steps hand over nothing.
  have rested : ∀ next : Multi, Controlled (ByteOf content) job next →
      next.workers = multi.workers.set index moved ∧ next.phase = multi.phase ∧ next.cancelled = multi.cancelled →
      moved.handed = worker.handed → moved.handle.flight = worker.handle.flight →
      Steady content io job disk next := fun next held same handed flight =>
    steady.replace present held same healthy (laid.rest facts.start handed flight)
      (fun mode => flight.trans (steady.still (through mode) worker member)) (fun _ _ => rfl) id id
  cases facts.moved with
  | control rests flight =>
      exact ⟨rested _ controlled ⟨rfl, rfl, rfl⟩ rests.handed flight, lower _ rfl ⟨rfl, rfl⟩⟩
  | wrote bytes mode accepts flight touched =>
      have idle := steady.still mode worker member
      have bounded := accepts.bounded
      have floor := sound.start_le_handed
      have fits := (steady.controlled.tiles.bounds worker member).2.2
      refine ⟨steady.replace present controlled ⟨rfl, rfl, rfl⟩ healthy
        (laid.wrote opened accepts.suited facts.start accepts.handed idle (flight.trans idle))
        (fun _ => flight.trans idle) (fun position outside => Disk.cell_write_outside ?_) (fun has => ?_)
        (fun sized => sized.write (by omega)), lower _ rfl ⟨rfl, rfl⟩⟩
      · unfold Covers
        omega
      · simpa [Disk.write, applyEffect] using has
  | passed bytes mode accepts idle flight =>
      refine ⟨steady.replace present controlled ⟨rfl, rfl, rfl⟩ healthy
        (laid.passed accepts.suited sound.start_le_handed facts.start accepts.handed idle flight)
        (fun other => ?_) (fun _ _ => rfl) id id, lower _ rfl ⟨rfl, rfl⟩⟩
      rw [through other] at mode
      cases mode
  | torn bytes kept mode failed =>
      subst failed
      cases faultless
  | stored level grows handed uncounted flight =>
      exact ⟨rested _ controlled ⟨rfl, rfl, rfl⟩ handed flight, lower _ rfl ⟨rfl, rfl⟩⟩
  | counted handed current after flight =>
      exact ⟨rested _ controlled ⟨rfl, rfl, rfl⟩ handed flight, lower _ rfl ⟨rfl, rfl⟩⟩
  | marked response answered status current handed uncounted flight =>
      exact ⟨rested _ controlled ⟨rfl, rfl, rfl⟩ handed flight, lower _ rfl ⟨rfl, rfl⟩⟩
  | dropped offset bytes => exact absurd rfl (kept offset bytes)

/-- A background write that lands puts its bytes into the file. -/
theorem Steady.landed [SerdeJson Text] (steady : Steady content io job disk multi) {index offset : Nat}
    {worker : Worker} {bytes : List UInt8} (present : multi.workers[index]? = some worker)
    (carried : worker.handle = .busy offset bytes) :
    Proceeds content io job multi (.land index) (disk.write offset bytes,
      { multi with workers := multi.workers.set index { worker with handle := .idle } }) := by
  have member := List.mem_of_getElem? present
  have sound := steady.controlled.sound worker member
  have healthy := steady.healthy worker member
  have laid := steady.laid worker member
  have flight : worker.handle.flight = some (offset, bytes) := by rw [carried]; rfl
  obtain ⟨begun, ends, -⟩ := laid.flight offset bytes flight
  have reached := sound.handed_le
  have fits := (steady.controlled.tiles.bounds worker member).2.2
  have begun : multi.phase.sized = true := by
    by_contra unsized
    have free := steady.early (Bool.eq_false_iff.mpr unsized) worker member
    exact nomatch flight.symm.trans free
  have there := (steady.sized begun).isSome
  refine ⟨steady.replace present (steady.controlled.rehandle present rfl) ⟨rfl, rfl, rfl⟩
    ⟨healthy.fed, nofun, fun _ => nofun⟩ (laid.landed there flight rfl) (fun _ => rfl)
    (fun position outside => Disk.cell_write_outside ?_) (fun has => ?_) (fun sized => sized.write (by omega)),
    Or.inl ?_⟩
  · unfold Covers
    omega
  · simpa [Disk.write] using has
  · have moves : Multi.rank { multi with workers := multi.workers.set index { worker with handle := .idle } } +
        worker.rank = multi.rank + Worker.rank { worker with handle := .idle } :=
      rank_replace present rfl ⟨rfl, rfl⟩
    have heavy : worker.handle.flights = 1 := by rw [carried]; rfl
    have light : Handle.flights .idle = 0 := rfl
    simp only [Worker.rank, heavy, light] at moves
    dsimp only
    omega

variable [SerdeJson Text]

/-- A step of the state task touches no byte of the data file. -/
theorem Steady.saver (steady : Steady content io job disk multi) {event : SaverEvent} {stopping : Bool}
    {saver : Saver} {effect : SaverEffect} (during : multi.phase = if stopping then .stopping else .running)
    (move : SaverMove job multi.workers stopping multi.saver event saver effect) :
    Proceeds content io job multi (.saver event) (applySaverEffect disk effect, { multi with saver := saver }) := by
  have change : Change (ByteOf content) io job disk multi (.saver event) (applySaverEffect disk effect)
      { multi with saver := saver } := .saver event stopping saver effect during move
  have controlled := steady.controlled.change change
  have same : ∀ position, ((applySaverEffect disk effect).cell position).byte = (disk.cell position).byte := by
    intro position
    cases effect with
    | none | save => rfl
    | sync => exact Disk.byte_sync position
  have sized : multi.phase.sized = true → (applySaverEffect disk effect).Sized job.fileSize := by
    intro begun
    cases effect with
    | none | save => exact steady.sized begun
    | sync => exact (steady.sized begun).sync
  refine ⟨⟨controlled, steady.healthy, fun worker member => ?_, steady.still, steady.early, fun at_phase => ?_, sized,
    steady.onward, steady.calm⟩, ?_⟩
  · exact (steady.laid worker member).congr fun position _ _ => same position
  · rw [during] at at_phase
    cases stopping <;> cases at_phase
  · cases stopping with
    | false => exact Or.inr ⟨during, by simp [rank, during]⟩
    | true =>
        have falls := move.falls
        refine Or.inl ?_
        simp only [rank, during, if_true]
        omega

/-- Each step without a fault keeps the call steady and lowers the rank, except for the idle ones. -/
theorem Steady.step (steady : Steady content io job disk multi) (size : job.fileSize = content.length)
    (faultless : multi.Faultless content act) (taken : Multi.step io job (disk, multi) act = some next) :
    Proceeds content io job multi act next := by
  cases act with
  | cancel | lose | landOrphan | loseOrphan => cases faultless
  | main event =>
      obtain ⟨phase, same, move⟩ := mainStep_move steady.controlled.begun taken
      have proceeds := steady.main faultless move
      rwa [← same] at proceeds
  | worker index event =>
      simp only [Multi.step, workerStep] at taken
      split at taken
      · rename_i worker running present
        obtain ⟨⟨moved, effect⟩, stepped, rfl⟩ := Option.map_eq_some_iff.mp taken
        exact steady.worker size running present (faultless worker present) stepped
      · cases taken
  | saver event =>
      simp only [Multi.step, saverStep] at taken
      split at taken
      · rename_i running
        obtain ⟨⟨saver, effect⟩, stepped, rfl⟩ := Option.map_eq_some_iff.mp taken
        have during : multi.phase = if false then .stopping else .running := running
        exact steady.saver during (Saver.step_move stepped)
      · rename_i stopping
        obtain ⟨⟨saver, effect⟩, stepped, rfl⟩ := Option.map_eq_some_iff.mp taken
        have during : multi.phase = if true then .stopping else .running := stopping
        exact steady.saver during (Saver.step_move stepped)
      · cases taken
  | land index =>
      obtain ⟨worker, offset, bytes, present, carried⟩ := landStep_busy taken
      simp only [Multi.step, landStep, present, carried] at taken
      cases taken
      exact steady.landed present carried

omit [SerdeJson Text] in
/-- A call whose workers are not all finished has one that is not. -/
theorem exists_unfinished (unfinished : ¬ multi.workers.all Worker.finished = true) :
    ∃ (index : Nat) (worker : Worker), multi.workers[index]? = some worker ∧ worker.finished = false := by
  simp only [List.all_eq_true, not_forall] at unfinished
  obtain ⟨worker, member, pending⟩ := unfinished
  obtain ⟨index, present⟩ := List.getElem?_of_mem member
  exact ⟨index, worker, present, Bool.eq_false_iff.mpr pending⟩

/-- A worker of a running call that has not ended can go on, or its background write can land. -/
theorem Steady.worker_moves (steady : Steady content io job disk multi) (running : multi.phase = .running)
    {index : Nat} {worker : Worker} (present : multi.workers[index]? = some worker)
    (pending : worker.finished = false) :
    ∃ act, multi.Faultless content act ∧ ¬ multi.Idle act ∧ (Multi.step io job (disk, multi) act).isSome = true := by
  cases carried : worker.handle with
  | busy offset bytes => exact ⟨.land index, trivial, nofun, by simp [Multi.step, landStep, present, carried]⟩
  | closed | idle | failed =>
      have free : worker.handle.flight = none := by rw [carried]; rfl
      have healthy := steady.healthy worker (List.mem_of_getElem? present)
      obtain ⟨event, faultless, busy, enabled⟩ : ∃ event, worker.Faultless content event ∧ event ≠ .chunk 0 ∧
          (worker.step io job.cfg job.info.ifRangeValidator false event).isSome = true := healthy.moves pending free
      refine ⟨.worker index event, fun found same => ?_, busy, ?_⟩
      · obtain rfl := Option.some.inj (present.symm.trans same)
        exact faultless
      · simpa [Multi.step, workerStep, running, present, steady.calm] using enabled

/-- A steady call that has not returned can go on. -/
theorem Steady.moves (steady : Steady content io job disk multi) (pending : multi.outcome = none) :
    ∃ act, multi.Faultless content act ∧ ¬ multi.Idle act ∧ (Multi.step io job (disk, multi) act).isSome = true := by
  have onward := steady.onward
  cases at_phase : multi.phase with
  | opening | reopening => exact ⟨.main (.created true), rfl, by rintro ⟨⟩, by simp [Multi.step, mainStep, at_phase]⟩
  | sizing => exact ⟨.main (.resized true), rfl, by rintro ⟨⟩, by simp [Multi.step, mainStep, at_phase]⟩
  | settling | finalSync => exact ⟨.main (.synced true), rfl, by rintro ⟨⟩, by simp [Multi.step, mainStep, at_phase]⟩
  | deleting => exact ⟨.main (.deleted true), rfl, by rintro ⟨⟩, by simp [Multi.step, mainStep, at_phase]⟩
  | running =>
      by_cases finished : multi.workers.all Worker.finished = true
      · exact ⟨.main .join, trivial, by rintro ⟨⟩, by simp [Multi.step, mainStep, at_phase, finished]⟩
      · obtain ⟨index, worker, present, pending⟩ := exists_unfinished finished
        exact steady.worker_moves at_phase present pending
  | stopping =>
      by_cases ended : multi.saver.pc = .finished
      · exact ⟨.main .conclude, trivial, by rintro ⟨⟩, by simp [Multi.step, mainStep, at_phase, ended]⟩
      · obtain ⟨event, good, enabled⟩ := Saver.moves job multi.workers ended
        refine ⟨.saver event, ?_, by simp [Idle, at_phase], ?_⟩
        · cases event <;> simp_all [Faultless]
        · simpa [Multi.step, saverStep, at_phase] using enabled
  | loading | discarding | panicked => simp [Multi.onward, at_phase] at onward
  | returned result => simp [Multi.outcome, at_phase] at pending

omit [SerdeJson Text] in
/-- A steady call returns without an error. -/
theorem Steady.fine (steady : Steady content io job disk multi) {result : Except Error Unit}
    (returned : multi.phase = .returned result) : result = .ok () := by
  have onward := steady.onward
  cases result with
  | ok => rfl
  | error error => simp [Multi.onward, returned] at onward

omit [SerdeJson Text] in
/-- A steady call that has returned leaves the whole content. -/
theorem Steady.contents (steady : Steady content io job disk multi) (size : job.fileSize = content.length)
    (returned : multi.phase = .returned (.ok ())) : disk.contents = some content := by
  have sized := steady.sized (by rw [returned]; rfl)
  have finished := steady.controlled.joined (by rw [returned]; rfl)
  have complete := steady.controlled.complete (by rw [returned]; rfl)
  rw [size] at sized
  refine sized.contents fun position byte present => ?_
  have inside : position < job.fileSize := size ▸ (List.getElem?_eq_some_iff.mp present).1
  obtain ⟨index, worker, found, lower, upper⟩ := steady.controlled.tiles.exists_tile (Nat.zero_le position) inside
  have member := List.mem_of_getElem? found
  have free := steady.controlled.parked worker member (Worker.closed_of_finished (finished worker member))
  refine (steady.laid worker member).bytes position lower ?_ byte present
  simp only [Worker.reached, free, Option.map_none, Option.getD_none]
  exact (complete worker member).symm ▸ upper

omit [SerdeJson Text] in
/-- A call that has split the file afresh is steady. -/
theorem begin_steady {ranges : List WorkerRange} (cover : ExactCover job.fileSize ranges) (nonempty : ranges ≠ [])
    (fresh : ∀ range ∈ ranges, range.current = range.start) (starting : multi.saver.pc = .starting)
    (calm : multi.cancelled = false) : Steady content io job disk (multi.begin ranges) where
  controlled := begin_controlled cover nonempty starting
  healthy := by
    intro worker member
    obtain ⟨range, _, rfl⟩ := List.mem_map.mp member
    exact Worker.spawn_healthy range
  laid := by
    intro worker member
    obtain ⟨range, present, rfl⟩ := List.mem_map.mp member
    refine ⟨nofun, fun position lower upper => ?_⟩
    have level := fresh range present
    simp only [Worker.reached, Worker.spawn, Handle.flight, Option.map_none, Option.getD_none] at lower upper
    omega
  still := by
    rintro - worker member
    obtain ⟨range, _, rfl⟩ := List.mem_map.mp member
    rfl
  early := by
    rintro - worker member
    obtain ⟨range, _, rfl⟩ := List.mem_map.mp member
    rfl
  opened := nofun
  sized := nofun
  onward := rfl
  calm := calm

end Multi

end FastDownloader
