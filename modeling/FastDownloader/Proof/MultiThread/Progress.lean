/-
This file proves that interrupted calls neither lose nor repeat their progress.
-/

import FastDownloader.Proof.MultiThread.Landing
import FastDownloader.Proof.MultiThread.Through

namespace FastDownloader

open Foundation

/-- All calls see the same resource, disk operations succeed, no answer is 416, and a call that ends early returns an
error other than a change of the resource. -/
def Undisturbed (info : FileInfo) {Text : Type} (session : Session (Disk Text) Multi Job) : Move Job Act → Prop
  | .start job => job.info = info
  | .step (.main (.load ok)) | .step (.main (.created ok)) | .step (.main (.resized ok))
  | .step (.saver (.saved ok)) => ok = true
  | .step (.worker _ (.writeFailed _)) => False
  | .step act => ∀ response ∈ act.answer, response.status ≠ 416
  | .finish => ∀ process ∈ session.active,
      process.2.outcome ≠ some (.ok ()) ∧ process.2.outcome ≠ some (.error .resourceChanged)
  | .kill => False

instance (info : FileInfo) {Text : Type} (session : Session (Disk Text) Multi Job) (move : Move Job Act) :
    Decidable (Undisturbed info session move) := by
  unfold Undisturbed
  split <;> infer_instance

/-- This ledger asks for exactly one write at each offset since an earlier moment. -/
def oneWrite (earlier : Nat → Nat) : Ledger fun _ _ => True where
  todo := fun position cell => cell.writes = earlier position
  done := fun position cell => cell.writes = earlier position + 1
  put := fun _ _ _ todo _ => congrArg (· + 1) todo
  sync_todo := fun _ _ todo => todo
  sync_done := fun _ _ done => done

/-- These phases come after the state task has ended. -/
def Phase.concluded : Phase → Bool
  | .discarding _ | .reopening | .finalSync | .deleting | .returned _ => true
  | _ => false

/-- These phases come after the workers have joined. -/
def Phase.halted : Phase → Bool
  | .stopping => true
  | phase => phase.concluded

/-- The state file is deleted by a change of the resource and by success. -/
def Phase.discarded : Phase → Bool
  | .returned (.ok _) | .returned (.error .resourceChanged) => true
  | _ => false

namespace Multi

variable {Text : Type} [SerdeJson Text] {right : Nat → UInt8 → Prop} {ledger : Ledger right} {io : FileIo} {job : Job}
  {disk after : Disk Text} {multi next : Multi} {act : Act}

/-- The state file holds exactly the positions of the workers. -/
def Filed (job : Job) (disk : Disk Text) (multi : Multi) : Prop :=
  ∃ state, Taken job multi.workers state ∧ state.workers = multi.workers.map Worker.range ∧
    disk.dlstate = some (SerdeJson.toVec state)

/-- The last checkpoint runs over finished workers and leaves their positions in the state file. -/
structure Shelved (job : Job) (disk : Disk Text) (multi : Multi) : Prop where
  final : multi.saver.final = true → multi.saver.Exact multi.workers ∧
    (∀ worker ∈ multi.workers, worker.finished = true) ∧ multi.phase.halted = true
  begun : multi.saver.pc = .finished → multi.saver.final = true
  filed : multi.saver.pc = .finished → multi.phase.discarded = false → Filed job disk multi
  concluded : multi.phase.concluded = true → multi.saver.pc = .finished
  discarding : ∀ error, multi.phase = .discarding error → error = .resourceChanged

theorem begin_shelved (unbegun : Unbegun job multi) (ranges : List WorkerRange) :
    Shelved job disk (multi.begin ranges) := by
  constructor <;> simp [Multi.begin, unbegun.saver, Saver.init, Phase.concluded]

omit [SerdeJson Text] in
/-- A main step runs only before the call has returned. -/
theorem MainMove.open {event : MainEvent} {phase : Phase} (move : MainMove job disk multi event after phase) :
    multi.phase.discarded = false := by
  cases move <;> rename_i at_phase <;> simp_all [Phase.discarded]

/-- A call that only changes its phase keeps the last checkpoint. -/
theorem Shelved.main (shelved : Shelved job disk multi) {event : MainEvent} {phase : Phase}
    (created : event ≠ .created false) (resized : event ≠ .resized false)
    (move : MainMove job disk multi event after phase) : Shelved job after { multi with phase := phase } := by
  have earlier := move.open
  have concluded := shelved.concluded
  have final : (multi.phase.halted = true → phase.halted = true) → multi.saver.final = true →
      multi.saver.Exact multi.workers ∧ (∀ worker ∈ multi.workers, worker.finished = true) ∧
        phase.halted = true :=
    fun still done => ⟨(shelved.final done).1, (shelved.final done).2.1, still (shelved.final done).2.2⟩
  have filed : after.dlstate = disk.dlstate → multi.saver.pc = .finished → phase.discarded = false →
      Filed job after { multi with phase := phase } := by
    intro same ended _
    obtain ⟨state, taken, exact, stored⟩ := shelved.filed ended earlier
    exact ⟨state, taken, exact, same.trans stored⟩
  have synced : ∀ ok : Bool, (if ok = true then disk.sync else disk).dlstate = disk.dlstate := by
    intro ok
    cases ok <;> rfl
  cases move with
  | created at_phase | resized at_phase | join at_phase =>
      exact ⟨final (by simp [at_phase, Phase.halted, Phase.concluded]), shelved.begun, filed rfl,
        (nomatch ·), by simp⟩
  | settled ok at_phase =>
      exact ⟨final (by simp [at_phase, Phase.halted, Phase.concluded]), shelved.begun, filed (synced ok),
        (nomatch ·), by simp⟩
  | notCreated | notReopened => exact absurd rfl created
  | notResized => exact absurd rfl resized
  | reopened at_phase =>
      exact ⟨final fun _ => rfl, shelved.begun, filed rfl,
        fun _ => concluded (by simp [at_phase, Phase.concluded]), by simp⟩
  | finalSync ok at_phase =>
      exact ⟨final fun _ => rfl, shelved.begun, filed (synced ok),
        fun _ => concluded (by simp [at_phase, Phase.concluded]), by simp⟩
  | conclude at_phase ended =>
      refine ⟨final fun _ => ?_, shelved.begun, filed rfl, fun _ => ended, fun error discards => ?_⟩
      · rcases verdict_cases job multi with ⟨_, same, _⟩ | same | ⟨same, _⟩ <;> rw [same] <;> rfl
      · rcases verdict_cases job multi with ⟨_, same, _⟩ | same | ⟨same, _⟩ <;> simp [same] at discards
        exact discards.symm
  | discarded ok error at_phase =>
      obtain rfl := shelved.discarding error at_phase
      exact ⟨final fun _ => rfl, shelved.begun, fun _ => (nomatch ·),
        fun _ => concluded (by simp [at_phase, Phase.concluded]), by simp⟩
  | deleted ok at_phase =>
      exact ⟨final fun _ => rfl, shelved.begun, fun _ => (nomatch ·),
        fun _ => concluded (by simp [at_phase, Phase.concluded]), by simp⟩

/-- Every step keeps the last checkpoint when the operations of the disk succeed. -/
theorem Shelved.change (shelved : Shelved job disk multi) (tracked : Tracked ledger job disk multi)
    (paced : job.cfg.stateSaveInterval ≠ 0) (created : act ≠ .main (.created false))
    (resized : act ≠ .main (.resized false)) (saves : act ≠ .saver (.saved false))
    (change : Change right .through job disk multi act after next) : Shelved job after next := by
  cases change with
  | cancelled => exact ⟨shelved.final, shelved.begun, shelved.filed, shelved.concluded, shelved.discarding⟩
  | main event _ phase move =>
      exact shelved.main (fun same => created (same ▸ rfl)) (fun same => resized (same ▸ rfl)) move
  | landed _ _ _ _ present carried | lost _ _ _ _ _ present carried =>
      exact absurd carried (tracked.not_carried present)
  | orphanLanded _ _ _ present | orphanLost _ _ _ _ present => exact absurd present tracked.not_dropped
  | worker index event worker moved effect running present facts parked =>
      -- The last checkpoint has not begun while the workers run.
      have unbegun : multi.saver.final ≠ true := by
        intro done
        simpa [running, Phase.halted, Phase.concluded] using (shelved.final done).2.2
      have unended : multi.saver.pc ≠ .finished := fun ended => unbegun (shelved.begun ended)
      cases effect <;> exact ⟨fun done => absurd done unbegun, fun ended => absurd ended unended,
        fun ended => absurd ended unended, by simp [applyEffect, running, Phase.concluded],
        by simp [applyEffect, running]⟩
  | saver event stopping moved effect during move =>
      have bounded : ∀ worker ∈ multi.workers, worker.current ≤ worker.stop :=
        fun worker member => (tracked.controlled.bounded worker member).2
      have unended : multi.saver.pc ≠ .finished := by cases move <;> simp_all
      have open_phase : multi.phase.concluded = true → False := fun late => unended (shelved.concluded late)
      refine ⟨fun done => ⟨move.exact (fun done => (shelved.final done).1) bounded done, ?_⟩, ?_, ?_,
        fun late => (open_phase late).elim, shelved.discarding⟩
      · by_cases earlier : multi.saver.final = true
        · exact (shelved.final earlier).2
        · cases move with
          | halt at_pc stopped =>
              subst stopped
              have stops : multi.phase = .stopping := during
              refine ⟨tracked.controlled.joined (by simp [stops, Phase.joined]), ?_⟩
              simp [stops, Phase.halted]
          | broken | opened | tick | load | take | synced | saved => exact absurd done earlier
      · intro ended
        obtain ⟨final, -⟩ := move.ended paced ended
        cases move with
        | halt => rfl
        | broken | opened | tick | load | take | synced | saved => exact final
      · intro ended _
        obtain ⟨final, ok, state, at_pc, rfl, written⟩ := move.ended paced ended
        have exact := (shelved.final final).1
        have sound := tracked.controlled.saver
        simp only [Saver.Exact, at_pc] at exact
        simp only [Saver.Sound, at_pc] at sound
        cases ok with
        | false => exact absurd rfl saves
        | true =>
            subst written
            exact ⟨state, sound, exact, rfl⟩

/-- A finished worker that was never marked has stored all that it handed over. -/
theorem handed_of_finished {worker : Worker} (sound : worker.Sound right) (finished : worker.finished = true)
    (level : worker.current ≤ worker.handed) : worker.handed = worker.current := by
  have aligned := sound.aligned
  have bounded := sound.handed_le
  unfold Worker.finished at finished
  unfold Worker.Aligned at aligned
  split at finished <;> rename_i at_pc
  · simp only [at_pc] at aligned
    exact aligned.1
  · simp only [at_pc] at aligned
    omega
  · cases finished

/-- Between two calls the state file names exactly the offsets that were written once. -/
structure Counted (earlier : Nat → Nat) (info : FileInfo) (disk : Disk Text) : Prop where
  named : ∀ state, load disk.dlstate = .ok state →
    resumable info (info.size.getD 0) state = true ∧
      ∀ position, position < info.size.getD 0 →
        (Named state.workers position → (disk.cell position).writes = earlier position + 1) ∧
          (¬ Named state.workers position → (disk.cell position).writes = earlier position)
  unnamed : (∀ state, load disk.dlstate ≠ .ok state) →
    ∀ position, position < info.size.getD 0 → (disk.cell position).writes = earlier position

/-- A call that resumes from counted offsets begins with a record of them. -/
theorem Counted.begin {earlier : Nat → Nat} (counted : Counted earlier job.info disk)
    (unbegun : Unbegun job multi) {ranges : List WorkerRange}
    (chosen : chooseRanges job job.fileSize disk.dlstate = some ranges) :
    Tracked (oneWrite earlier) job disk (multi.begin ranges) := by
  obtain ⟨cover, nonempty⟩ := chooseRanges_cover chosen
  have fresh : multi.saver.pc = .starting := by rw [unbegun.saver]; rfl
  rcases chooseRanges_cases chosen with ⟨state, loaded, -, rfl⟩ | ⟨rejected, split⟩
  · have written := (counted.named state loaded).2
    exact begin_tracked cover nonempty fresh unbegun.orphans
      (fun position inside named => (written position inside).1 named)
      (fun position inside open_offset => (written position inside).2 open_offset)
  · have none_named := fun position => not_named_of_fresh (splitWorkers_cover split).2 position
    have absent : ∀ state, load disk.dlstate ≠ .ok state := by
      intro state loaded
      have accepted := (counted.named state loaded).1
      exact Bool.false_ne_true ((rejected state loaded).symm.trans accepted)
    exact begin_tracked cover nonempty fresh unbegun.orphans
      (fun position _ named => absurd named (none_named position))
      (fun position inside _ => counted.unnamed absent position inside)

/-- A filed call leaves its offsets counted. -/
theorem Shelved.counted {earlier : Nat → Nat} (shelved : Shelved job disk multi)
    (tracked : Tracked (oneWrite earlier) job disk multi) (level : multi.Level)
    (ended : multi.saver.pc = .finished) (kept : multi.phase.discarded = false) :
    Counted earlier job.info disk := by
  obtain ⟨state, taken, exact, stored⟩ := shelved.filed ended kept
  have controlled := tracked.controlled
  have finished := (shelved.final (shelved.begun ended)).2.1
  have loads : load disk.dlstate = .ok state := by
    rw [stored]
    exact controlled.load_taken taken
  refine ⟨fun other loaded => ?_, fun absent => absurd loads (absent state)⟩
  obtain rfl := Except.ok.inj (loads.symm.trans loaded)
  refine ⟨taken.resumable controlled.nonempty, fun position inside => ?_⟩
  obtain ⟨index, worker, present, lower, upper⟩ := controlled.tiles.exists_tile (Nat.zero_le position) inside
  have member := List.mem_of_getElem? present
  have all := handed_of_finished (controlled.sound worker member) (finished worker member) (level worker member)
  obtain ⟨done, todo⟩ := tracked.recorded worker member position lower upper
  have names : Named state.workers position ↔ position < worker.handed := by
    rw [exact]
    constructor
    · rintro ⟨range, found, above, below⟩
      obtain ⟨other, somewhere, rfl⟩ := List.mem_map.mp found
      obtain ⟨place, atPlace⟩ := List.getElem?_of_mem somewhere
      have bound := (controlled.bounded other somewhere).2
      obtain rfl := controlled.tiles.unique present atPlace ⟨lower, upper⟩ ⟨above, Nat.lt_of_lt_of_le below bound⟩
      obtain rfl := Option.some.inj (present.symm.trans atPlace)
      exact all ▸ below
    · intro below
      rw [all] at below
      exact ⟨worker.range, List.mem_map_of_mem member, lower, below⟩
  exact ⟨fun named => done (names.mp named), fun open_offset => todo (Nat.le_of_not_lt (mt names.mpr open_offset))⟩

omit [SerdeJson Text] in
/-- The guard of an undisturbed step, in the form that the step lemmas use. -/
theorem Undisturbed.step {info : FileInfo} {session : Session (Disk Text) Multi Job}
    (admitted : Undisturbed info session (.step act)) :
    act ≠ .main (.created false) ∧ act ≠ .main (.resized false) ∧ act ≠ .saver (.saved false) ∧
      (∀ index kept, act ≠ .worker index (.writeFailed kept)) ∧
      ∀ response ∈ act.answer, response.status ≠ 416 := by
  refine ⟨?_, ?_, ?_, ?_, ?_⟩
  · rintro rfl
    cases admitted
  · rintro rfl
    cases admitted
  · rintro rfl
    cases admitted
  · rintro index kept rfl
    exact admitted
  · unfold Undisturbed at admitted
    split at admitted <;> simp_all [Act.answer]

/-- A saved checkpoint loads again, and the resume guard of its own call accepts it. -/
theorem Controlled.save_accepted (controlled : Controlled right job multi) {last : Disk Text × Multi}
    (taken : Multi.step io job (disk, multi) (.saver (.saved true)) = some last) :
    ∃ state, last.1.dlstate = some (SerdeJson.toVec state) ∧ load last.1.dlstate = .ok state ∧
      state.validate = .ok () ∧ resumable job.info job.fileSize state = true := by
  have answered : multi.Answered right (.saver (.saved true)) := trivial
  have change := controlled.step_change answered taken
  generalize last.1 = after at change ⊢
  generalize last.2 = moved at change
  cases change with
  | saver event stopping moved effect during move =>
      cases move with
      | saved ok state at_pc =>
          have sound := controlled.saver
          simp only [Saver.Sound, at_pc] at sound
          refine ⟨state, rfl, controlled.load_taken sound, ?_, sound.resumable controlled.nonempty⟩
          exact sound.validate controlled.tiles (fun worker member => (controlled.bounded worker member).2)
            controlled.nonempty

/-- Whatever a call meets, the resume guard of its own resource accepts each of its snapshots. -/
theorem snapshot_accepted {guard : Session (Disk Text) Multi Job → Move Job Act → Prop} {moves : List (Move Job Act)}
    {last : Session (Disk Text) Multi Job}
    (run : Run (multiThread Text io).session guard ⟨disk, none⟩ moves last) {next : Disk Text × Multi}
    (active : last.active = some (job, multi))
    (taken : Multi.step io job (last.store, multi) (.saver (.saved true)) = some next) :
    ∃ state, next.1.dlstate = some (SerdeJson.toVec state) ∧ load next.1.dlstate = .ok state ∧
      state.validate = .ok () ∧ resumable job.info job.fileSize state = true := by
  have keeps := keeps_of_begun io guard (fun _ => True) (fun _ : Disk Text => True)
    (fun job _ multi => Controlled (fun _ _ => True) job multi) (fun _ _ _ => trivial)
    (fun _ _ _ _ _ _ _ unbegun _ chosen => unbegun.controlled chosen)
    (fun _ _ _ _ _ _ controlled _ taken => controlled.change (controlled.step_change (answered_any _ _) taken))
    (fun _ _ _ _ _ _ _ => trivial) (fun _ _ _ _ _ => trivial)
  have held := keeps.invariant run trivial
  obtain ⟨store, process⟩ := last
  cases active
  obtain ⟨-, ⟨unbegun, -⟩ | controlled⟩ := held
  · rw [unbegun.saver_waits] at taken
    cases taken
  · exact controlled.save_accepted taken

/-- Each call has a period for its checkpoints. -/
def Timed (_session : Session (Disk Text) Multi Job) : Move Job Act → Prop
  | .start job => job.cfg.stateSaveInterval ≠ 0
  | _ => True

instance (session : Session (Disk Text) Multi Job) : ∀ move, Decidable (Timed session move)
  | .start job => inferInstanceAs (Decidable (job.cfg.stateSaveInterval ≠ 0))
  | .step _ | .finish | .kill => .isTrue trivial

/-- These are the sessions of undisturbed calls that write checkpoints. -/
abbrev Checkpointed (info : FileInfo) (session : Session (Disk Text) Multi Job) (move : Move Job Act) : Prop :=
  Undisturbed info session move ∧ Timed session move

/-- An error other than a change of the resource leaves exactly the final positions on disk. -/
theorem positions_filed {info : FileInfo} {size : Nat} {moves : List (Move Job Act)}
    {last : Session (Disk Text) Multi Job} (known : info.size = some size)
    (run : Run (multiThread Text .through).session (Checkpointed info) ⟨disk, none⟩ moves last) {error : Error}
    (active : last.active = some (job, multi)) (returned : multi.outcome = some (.error error))
    (other : error ≠ .resourceChanged) :
    ∃ state, load last.store.dlstate = .ok state ∧ state.workers = multi.workers.map Worker.range := by
  have keeps := keeps_of_begun .through (Checkpointed info)
    (fun job => job.info = info ∧ job.cfg.stateSaveInterval ≠ 0) (fun _ : Disk Text => True)
    (fun job store multi =>
      (Tracked (rightBytes fun _ _ => True) job store multi ∧ Shelved job store multi) ∧
        job.cfg.stateSaveInterval ≠ 0)
    (fun _ _ admitted => admitted) ?_ ?_ (fun _ _ _ _ _ _ _ => trivial) (fun _ _ _ _ _ => trivial)
  · have held := keeps.invariant run trivial
    obtain ⟨store, process⟩ := last
    cases active
    have ended := (outcome_iff _ _).mp returned
    obtain ⟨⟨same, -⟩, ⟨unbegun, -⟩ | ⟨⟨tracked, shelved⟩, -⟩⟩ := held
    · rcases unbegun.phase with phase | ⟨-, unknown⟩ | phase
      · simp [phase] at ended
      · simp [same, known] at unknown
      · simp [phase] at ended
    · obtain ⟨state, taken, exact, stored⟩ := shelved.filed (shelved.concluded (by simp [ended, Phase.concluded]))
        (by rw [ended]; unfold Phase.discarded; split <;> simp_all)
      exact ⟨state, stored ▸ tracked.controlled.load_taken taken, exact⟩
  · rintro job store multi readable ranges ⟨-, paced⟩ - unbegun - chosen
    obtain ⟨cover, nonempty⟩ := chooseRanges_cover chosen
    exact ⟨⟨begin_tracked cover nonempty (by rw [unbegun.saver]; rfl) unbegun.orphans (fun _ _ _ => trivial)
      (fun _ _ _ => trivial), begin_shelved unbegun ranges⟩, paced⟩
  · rintro job store multi act next - ⟨⟨tracked, shelved⟩, paced⟩ admitted taken
    obtain ⟨created, resized, saves, -, -⟩ := Undisturbed.step admitted.1
    have change := tracked.controlled.step_change (answered_any _ _) taken
    exact ⟨⟨tracked.change change (Or.inl (rightBytes_tears _)),
      shelved.change tracked paced created resized saves change⟩, paced⟩

/-- The calls of a chain together write each offset once. -/
theorem writes_once {info : FileInfo} {size : Nat} {moves : List (Move Job Act)}
    {last : Session (Disk Text) Multi Job} (known : info.size = some size) (fresh : disk.dlstate = none)
    (run : Run (multiThread Text .through).session (Checkpointed info) ⟨disk, none⟩ moves last)
    (active : last.active = some (job, multi)) (returned : multi.outcome = some (.ok ())) {position : Nat}
    (inside : position < size) : (last.store.cell position).writes = (disk.cell position).writes + 1 := by
  have counting := keeps_of_begun .through (Checkpointed info)
    (fun job => job.info = info ∧ job.cfg.stateSaveInterval ≠ 0)
    (Counted (fun position => (disk.cell position).writes) info)
    (fun job (store : Disk Text) multi =>
      Tracked (oneWrite fun position => (disk.cell position).writes) job store multi ∧ multi.Level ∧
        Shelved job store multi ∧ job.info = info ∧ job.cfg.stateSaveInterval ≠ 0)
    (fun _ _ admitted => admitted) ?_ ?_ ?_ (fun _ _ _ _ never => never.1.elim)
  · have held := counting.invariant run ⟨fun state loaded => by simp [fresh, load] at loaded, fun _ _ _ => rfl⟩
    obtain ⟨store, process⟩ := last
    cases active
    have ended := (outcome_iff _ _).mp returned
    obtain ⟨⟨same, -⟩, ⟨unbegun, -⟩ | ⟨tracked, -, -, -⟩⟩ := held
    · exact absurd returned unbegun.outcome
    · exact tracked.complete (by simp [ended, Phase.checked]) (by simpa [Job.fileSize, same, known] using inside)
  · rintro job store multi readable ranges ⟨rfl, paced⟩ counted unbegun admitted chosen
    obtain rfl : readable = true := admitted.1
    exact ⟨counted.begin unbegun chosen, begin_level _ _, begin_shelved unbegun ranges, rfl, paced⟩
  · rintro job store multi act next - ⟨tracked, level, shelved, same, paced⟩ admitted taken
    obtain ⟨created, resized, saves, whole, satisfiable⟩ := Undisturbed.step admitted.1
    have change := tracked.controlled.step_change (answered_any _ _) taken
    exact ⟨tracked.change change (Or.inr whole), level.change satisfiable change,
      shelved.change tracked paced created resized saves change, same, paced⟩
  · rintro job store multi result ⟨tracked, level, shelved, rfl, -⟩ admitted returned
    have ended := (outcome_iff _ _).mp returned
    obtain ⟨notOk, notChanged⟩ := admitted.1 (job, multi) rfl
    refine shelved.counted tracked level (shelved.concluded (by simp [ended, Phase.concluded])) ?_
    rw [ended]
    unfold Phase.discarded
    split <;> simp_all

omit [SerdeJson Text] in
/-- The guard of a checkpointed session reads neither the handles nor what is durable. -/
theorem Alike.checkpointed {info : FileInfo} {session shown : Session (Disk Text) Multi Job} {move : Move Job Act}
    (alike : Alike session shown) (admitted : Checkpointed info session move) : Checkpointed info shown move := by
  cases move with
  | start job => exact admitted
  | step act =>
      refine ⟨?_, trivial⟩
      have undisturbed := admitted.1
      cases act with
      | main event => cases event <;> exact undisturbed
      | saver event => cases event <;> exact undisturbed
      | worker index event => cases event <;> exact undisturbed
      | _ => exact undisturbed
  | finish =>
      refine ⟨?_, trivial⟩
      rintro ⟨job, shadow⟩ active
      obtain ⟨multi, present, resembles⟩ := Session.Beside.shadowed alike active
      have ended := admitted.1 (job, multi) present
      rwa [← resembles.outcome] at ended
  | kill => exact admitted.1.elim

/-- Undisturbed calls that write checkpoints and lose no write keep their progress. Every snapshot is accepted by the
resume guard, an error other than a change of the resource leaves exactly the final positions on disk, and the calls
together write each offset once. -/
theorem progress_kept {info : FileInfo} {size : Nat} {moves : List (Move Job Act)}
    {last : Session (Disk Text) Multi Job} (known : info.size = some size)
    (run : Run (multiThread Text io).session
      (fun session move => Checkpointed info session move ∧ LandingMove session move) ⟨disk, none⟩ moves last) :
    (∀ job multi next, last.active = some (job, multi) →
      Multi.step io job (last.store, multi) (.saver (.saved true)) = some next →
      ∃ state, next.1.dlstate = some (SerdeJson.toVec state) ∧ load next.1.dlstate = .ok state ∧
        state.validate = .ok () ∧ resumable job.info job.fileSize state = true) ∧
    (∀ job multi error, last.active = some (job, multi) → multi.outcome = some (.error error) →
      error ≠ .resourceChanged →
      ∃ state, load last.store.dlstate = .ok state ∧ state.workers = multi.workers.map Worker.range) ∧
    (disk.dlstate = none → ∀ job multi, last.active = some (job, multi) → multi.outcome = some (.ok ()) →
      ∀ position, position < size → (last.store.cell position).writes = (disk.cell position).writes + 1) := by
  obtain ⟨more, shown, led, alike⟩ := session_alike run fun _ _ _ alike => alike.checkpointed
  refine ⟨fun job multi next active taken => snapshot_accepted run active taken, ?_, ?_⟩
  · intro job multi error active returned other
    obtain ⟨shadow, present, resembles⟩ := Session.Beside.active alike active
    obtain ⟨state, loaded, exact⟩ := positions_filed known led present (resembles.outcome.trans returned) other
    exact ⟨state, resembles.dlstate ▸ loaded, exact.trans resembles.ranges⟩
  · intro fresh job multi active returned position inside
    obtain ⟨shadow, present, resembles⟩ := Session.Beside.active alike active
    rw [← Disk.writes_seen (resembles.returned returned) position]
    exact writes_once known fresh led present (resembles.outcome.trans returned) inside

def twoBytes : Job := { oneByte with info := ⟨"u", some 2, fits_two, true, none, some "d", none⟩ }

/-- The first call is cancelled after one byte, and the second one loads the other byte. -/
def twoCalls : List (Move Job Act) :=
  .start twoBytes ::
    [.main (.load true), .main (.created true), .main (.resized true), .main (.synced true), .worker 0 .check,
      .worker 0 (.reply (some ⟨206, none, none, [7]⟩)), .worker 0 (.opened true), .worker 0 (.chunk 1),
      .worker 0 .wrote, .worker 0 .store, .worker 0 .count, .cancel, .worker 0 .streamError,
      .worker 0 (.flushed true), .main .join, .saver (.opened true), .saver .halt, .saver .load, .saver .load,
      .saver (.saved true), .main .conclude].map .step ++
    .finish :: .start twoBytes :: .step (.main (.load true)) :: (oneByteActs.map .step)

def twoCallsHistory : Option (Session (Disk DownloadState) Multi Job) :=
  replay (multiThread DownloadState .through).session ⟨⟨none, none⟩, none⟩ twoCalls

theorem progress_kept_twoCalls : ((twoCallsHistory.get rfl).store.cell 1).writes = 1 := by
  have run : Run (multiThread DownloadState .through).session
      (fun session move => Checkpointed twoBytes.info session move ∧ LandingMove session move) ⟨⟨none, none⟩, none⟩
      twoCalls (twoCallsHistory.get rfl) :=
    run_of_replay (by decide +kernel) (Option.some_get _).symm
  exact (progress_kept rfl run).2.2 rfl _ _ rfl rfl 1 (by decide)

/-- A call loads the first of two bytes and is cancelled. Its state task ends like this. -/
def partActs (byte : UInt8) (ends : List Act) : List Act :=
  [.main (.load true), .main (.created true), .main (.resized true), .main (.synced true), .worker 0 .check,
    .worker 0 (.reply (some ⟨206, none, none, [byte, byte]⟩)), .worker 0 (.opened true), .worker 0 (.chunk 1),
    .worker 0 .wrote, .worker 0 .store, .worker 0 .count, .cancel, .worker 0 .streamError,
    .worker 0 (.flushed true), .main .join] ++ ends ++ [.main .conclude]

/-- The interval is zero, so the cancelled call ends without a checkpoint. -/
def unpacedMoves (job : Job) (byte : UInt8) : List (Move Job Act) :=
  .start { job with cfg := { stateSaveInterval := 0 } } :: (partActs byte [.saver (.opened true)]).map .step

/-- The stream breaks while the first write is still under way, and the retry starts behind this byte. -/
def droppedActs : List Act :=
  [.main (.load true), .main (.created true), .main (.resized true), .main (.synced true), .worker 0 .check,
    .worker 0 (.reply (some ⟨206, none, none, [7, 7]⟩)), .worker 0 (.opened true), .worker 0 (.chunk 1),
    .worker 0 .wrote, .worker 0 .store, .worker 0 .count, .worker 0 .streamError, .worker 0 .slept, .worker 0 .check,
    .worker 0 (.reply (some ⟨206, none, none, [7]⟩)), .worker 0 (.opened true), .worker 0 (.chunk 1),
    .worker 0 .wrote, .worker 0 .store, .worker 0 .count, .land 0, .worker 0 (.flushed true), .worker 0 .check,
    .main .join, .saver (.opened true), .saver .halt, .saver .load, .saver .load, .saver (.saved true),
    .main .conclude, .main (.created true), .main (.synced true), .main (.deleted true)]

def brokenHistory (io : FileIo) (moves : List (Move Job Act)) : Option (Session (Disk DownloadState) Multi Job) :=
  replay (multiThread DownloadState io).session ⟨⟨none, none⟩, none⟩ moves

/-- No background write fails. -/
def Written : Move Job Act → Prop
  | .step (.lose _ _) | .step (.loseOrphan _ _) => False
  | _ => True

instance : ∀ move, Decidable (Written move)
  | .step (.lose _ _) | .step (.loseOrphan _ _) => .isFalse id
  | .start _ | .finish | .kill | .step .cancel | .step (.main _) | .step (.worker _ _) | .step (.saver _)
  | .step (.land _) | .step (.landOrphan _) => .isTrue trivial

/-- A call whose interval is zero leaves no positions behind. A call that drops a handle with its write returns before
this byte is in the file. -/
theorem progress_not_kept :
    ¬ (∀ moves last, Run (multiThread DownloadState .through).session (Undisturbed twoBytes.info) ⟨⟨none, none⟩, none⟩
        moves last →
      ∀ job multi error, last.active = some (job, multi) → multi.outcome = some (.error error) →
        error ≠ .resourceChanged →
        ∃ state, load last.store.dlstate = .ok state ∧ state.workers = multi.workers.map Worker.range) ∧
    ¬ (∀ moves last, Run (multiThread DownloadState .background).session
        (fun session move => Checkpointed twoBytes.info session move ∧ Written move) ⟨⟨none, none⟩, none⟩ moves last →
      ∀ job multi, last.active = some (job, multi) → multi.outcome = some (.ok ()) →
        ∀ position, position < 2 → (last.store.cell position).writes = 1) := by
  constructor
  · intro filed
    have run : Run (multiThread DownloadState .through).session (Undisturbed twoBytes.info) ⟨⟨none, none⟩, none⟩
        (unpacedMoves twoBytes 7) ((brokenHistory .through (unpacedMoves twoBytes 7)).get rfl) :=
      run_of_replay (by decide +kernel) (Option.some_get _).symm
    obtain ⟨state, loaded, -⟩ := filed _ _ run _ _ .cancelled rfl rfl (by simp)
    cases loaded
  · intro once
    have run : Run (multiThread DownloadState .background).session
        (fun session move => Checkpointed twoBytes.info session move ∧ Written move) ⟨⟨none, none⟩, none⟩
        (.start twoBytes :: droppedActs.map .step)
        ((brokenHistory .background (.start twoBytes :: droppedActs.map .step)).get rfl) :=
      run_of_replay (by decide +kernel) (Option.some_get _).symm
    exact absurd (once _ _ run _ _ rfl rfl 0 (by decide)) (by decide +kernel)

end Multi

end FastDownloader
