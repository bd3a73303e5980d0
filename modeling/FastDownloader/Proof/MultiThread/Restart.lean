/-
This file composes calls on one save path. Each call may return or be killed at any step.
-/

import FastDownloader.Proof.MultiThread.Assembly

namespace FastDownloader

open Foundation

namespace Multi

variable {Text : Type} [SerdeJson Text] {right : Nat → UInt8 → Prop} {io : FileIo} {job : Job}
  {disk after : Disk Text} {multi next : Multi} {act : Act}

/-- A call that has not chosen its ranges has no worker and has touched nothing. -/
structure Unbegun (job : Job) (multi : Multi) : Prop where
  phase : multi.phase = .loading ∨
    (multi.phase = .returned (.error .unknownLength) ∧ job.info.size = none) ∨ multi.phase = .panicked
  workers : multi.workers = []
  orphans : multi.orphans = []
  saver : multi.saver = Saver.init

theorem start_unbegun (job : Job) : Unbegun job (Multi.start job) := ⟨Or.inl rfl, rfl, rfl, rfl⟩

/-- Such a call does not return without an error. -/
theorem Unbegun.outcome (unbegun : Unbegun job multi) : multi.outcome ≠ some (.ok ()) := by
  unfold Multi.outcome
  rcases unbegun.phase with same | ⟨same, -⟩ | same <;> simp [same]

/-- The state task has not been started. -/
theorem Unbegun.saver_waits (unbegun : Unbegun job multi) (event : SaverEvent) :
    Multi.step io job (disk, multi) (.saver event) = none := by
  simp only [step, saverStep]
  rcases unbegun.phase with same | ⟨same, -⟩ | same <;> simp [same]

/-- The only way on is to begin with chosen ranges. -/
theorem Unbegun.step_cases (unbegun : Unbegun job multi) {last : Disk Text × Multi}
    (taken : Multi.step io job (disk, multi) act = some last) :
    (last.1 = disk ∧ Unbegun job last.2) ∨
      ∃ readable ranges, act = .main (.load readable) ∧
        chooseRanges job job.fileSize (if readable then disk.dlstate else none) = some ranges ∧
        last = (disk, multi.begin ranges) := by
  have noWorker : ∀ index : Nat, multi.workers[index]? = none := by simp [unbegun.workers]
  have noOrphan : ∀ index : Nat, multi.orphans[index]? = none := by simp [unbegun.orphans]
  cases act with
  | cancel =>
      cases taken
      exact Or.inl ⟨rfl, unbegun.phase, unbegun.workers, unbegun.orphans, unbegun.saver⟩
  | main event =>
      rcases unbegun.phase with loading | stuck
      · obtain ⟨same, readable, rfl, cases⟩ := loadStep_cases loading taken
        rcases cases with ⟨unknown, ended⟩ | ⟨_, ended⟩ | ⟨ranges, chosen, begun⟩
        · refine Or.inl ⟨same, ?_⟩
          rw [ended]
          exact ⟨Or.inr (Or.inl ⟨rfl, unknown⟩), unbegun.workers, unbegun.orphans, unbegun.saver⟩
        · refine Or.inl ⟨same, ?_⟩
          rw [ended]
          exact ⟨Or.inr (Or.inr rfl), unbegun.workers, unbegun.orphans, unbegun.saver⟩
        · exact Or.inr ⟨readable, ranges, rfl, chosen, Prod.ext same begun⟩
      · simp only [step, mainStep] at taken
        rcases stuck with ⟨returned, -⟩ | panicked
        · simp [returned] at taken
        · simp [panicked] at taken
  | worker index event => simp [step, workerStep, noWorker] at taken
  | saver event =>
      rw [unbegun.saver_waits] at taken
      cases taken
  | land index | lose index => simp [step, landStep, noWorker] at taken
  | landOrphan index | loseOrphan index => simp [step, orphanStep, noOrphan] at taken

/-- Chosen ranges put a call under control, whatever its answers are. -/
theorem Unbegun.controlled {right : Nat → UInt8 → Prop} {file : Option Text} {ranges : List WorkerRange}
    (unbegun : Unbegun job multi) (chosen : chooseRanges job job.fileSize file = some ranges) :
    Controlled right job (multi.begin ranges) := by
  obtain ⟨cover, nonempty⟩ := chooseRanges_cover chosen
  exact begin_controlled cover nonempty (by rw [unbegun.saver]; rfl)

/-- At every moment a call has not begun or is controlled. -/
theorem step_begun (held : Unbegun job multi ∨ Controlled (fun _ _ => True) job multi) {last : Disk Text × Multi}
    (taken : Multi.step io job (disk, multi) act = some last) :
    Unbegun job last.2 ∨ Controlled (fun _ _ => True) job last.2 := by
  rcases held with unbegun | controlled
  · rcases unbegun.step_cases taken with ⟨_, still⟩ | ⟨readable, ranges, rfl, chosen, rfl⟩
    · exact Or.inl still
    · exact Or.inr (unbegun.controlled chosen)
  · exact Or.inr (controlled.change (controlled.step_change (answered_any _ _) taken))

/-- A call begins with right bytes when the state that it accepts names only right ones. -/
theorem begin_right {content : List UInt8} {readable : Bool} {ranges : List WorkerRange}
    (unbegun : Unbegun job multi)
    (agrees : ∀ state, load disk.dlstate = .ok state → resumable job.info job.fileSize state = true →
      ∀ position, Named state.workers position → content[position]? = some (disk.cell position).byte)
    (chosen : chooseRanges job job.fileSize (if readable then disk.dlstate else none) = some ranges) :
    Tracked (rightBytes (ByteOf content)) job disk (multi.begin ranges) := by
  obtain ⟨cover, nonempty⟩ := chooseRanges_cover chosen
  refine begin_tracked cover nonempty (by rw [unbegun.saver]; rfl) unbegun.orphans ?_ (fun _ _ _ => trivial)
  intro position _ named expected present
  rcases chooseRanges_cases chosen with ⟨state, loaded, accepted, rfl⟩ | ⟨-, split⟩
  · cases readable with
    | false => cases loaded
    | true => exact Option.some.inj ((agrees state loaded accepted position named).symm.trans present)
  · exact absurd named (not_named_of_fresh (splitWorkers_cover split).2 position)

/-- An invariant of calls on one save path has four obligations: a call begins with chosen ranges, it takes a step,
it returns, or it is killed. -/
theorem keeps_of_begun (io : FileIo) (guard : Session (Disk Text) Multi Job → Move Job Act → Prop)
    (suited : Job → Prop) (idle : Disk Text → Prop) (begun : Job → Disk Text → Multi → Prop)
    (starts : ∀ disk job, guard ⟨disk, none⟩ (.start job) → suited job)
    (begins : ∀ job disk multi readable ranges, suited job → idle disk → Unbegun job multi →
      guard ⟨disk, some (job, multi)⟩ (.step (.main (.load readable))) →
      chooseRanges job job.fileSize (if readable then disk.dlstate else none) = some ranges →
      begun job disk (multi.begin ranges))
    (steps : ∀ job disk multi act next, suited job → begun job disk multi →
      guard ⟨disk, some (job, multi)⟩ (.step act) → Multi.step io job (disk, multi) act = some next →
      begun job next.1 next.2)
    (finishes : ∀ job disk multi result, begun job disk multi →
      guard ⟨disk, some (job, multi)⟩ .finish → multi.outcome = some result → idle disk)
    (kills : ∀ job disk multi, begun job disk multi → guard ⟨disk, some (job, multi)⟩ .kill → idle disk) :
    (multiThread Text io).Keeps guard idle fun job disk multi =>
      suited job ∧ ((Unbegun job multi ∧ idle disk) ∨ begun job disk multi) where
  start disk job held admitted := ⟨starts disk job admitted, Or.inl ⟨start_unbegun job, held⟩⟩
  step := by
    rintro job disk multi act next ⟨suits, ⟨unbegun, held⟩ | held⟩ admitted taken
    · refine ⟨suits, ?_⟩
      rcases unbegun.step_cases taken with ⟨same, still⟩ | ⟨readable, ranges, rfl, chosen, rfl⟩
      · exact Or.inl ⟨still, same ▸ held⟩
      · exact Or.inr (begins job disk multi readable ranges suits held unbegun admitted chosen)
    · exact ⟨suits, Or.inr (steps job disk multi act next suits held admitted taken)⟩
  finish := by
    rintro job disk multi result ⟨_, ⟨_, held⟩ | held⟩ admitted returned
    · exact held
    · exact finishes job disk multi result held admitted returned
  kill := by
    rintro job disk multi ⟨_, ⟨_, held⟩ | held⟩ admitted
    · exact held
    · exact kills job disk multi held admitted

/-- A saved checkpoint loads again as itself. -/
theorem Controlled.load_taken (controlled : Controlled right job multi) {state : DownloadState}
    (taken : Taken job multi.workers state) : load (some (SerdeJson.toVec state : Text)) = .ok state :=
  load_toVec (taken.validate controlled.tiles (fun worker member => (controlled.bounded worker member).2)
    controlled.nonempty)

/-- The state task writes only snapshots of this call. -/
theorem Controlled.saving (controlled : Controlled right job multi) {event : SaverEvent} {stopping : Bool}
    {moved : Saver} {state : DownloadState}
    (move : SaverMove job multi.workers stopping multi.saver event moved (.save state)) :
    Taken job multi.workers state := by
  have sound := controlled.saver
  unfold Saver.Sound at sound
  simpa only [move.saving_pc] using sound

/-- The state file stays, goes away, or becomes a snapshot of this call. -/
theorem Change.dlstate (change : Change right io job disk multi act after next)
    (controlled : Controlled right job multi) :
    after.dlstate = disk.dlstate ∨ after.dlstate = none ∨
      ∃ state, multi.saver.pc = .saving state ∧ Taken job multi.workers state ∧
        after.dlstate = some (SerdeJson.toVec state) := by
  cases change with
  | cancelled | landed | lost | orphanLanded | orphanLost => exact Or.inl rfl
  | worker index event worker moved effect => cases effect <;> exact Or.inl rfl
  | main event _ phase move =>
      cases move with
      | created | notCreated | resized | notResized | join | conclude | reopened | notReopened =>
          exact Or.inl rfl
      | settled ok | finalSync ok => exact Or.inl (by cases ok <;> rfl)
      | discarded ok | deleted ok =>
          cases ok with
          | false => exact Or.inl rfl
          | true => exact Or.inr (Or.inl rfl)
  | saver event stopping moved effect during move =>
      cases effect with
      | none | sync => exact Or.inl rfl
      | save state =>
          exact Or.inr (Or.inr ⟨state, move.saving_pc, controlled.saving move, rfl⟩)

/-- A state that loads after a step loaded before it, or it is a snapshot that the step has saved. -/
theorem Change.load_cases (change : Change right io job disk multi act after next)
    (controlled : Controlled right job multi) {state : DownloadState} (loaded : load after.dlstate = .ok state) :
    load disk.dlstate = .ok state ∨ multi.saver.pc = .saving state ∧ Taken job multi.workers state := by
  rcases change.dlstate controlled with same | gone | ⟨taken, at_pc, snapshot, saved⟩
  · exact Or.inl (same ▸ loaded)
  · rw [gone] at loaded
    cases loaded
  · rw [saved, controlled.load_taken snapshot] at loaded
    obtain rfl := Except.ok.inj loaded
    exact Or.inr ⟨at_pc, snapshot⟩

omit [SerdeJson Text] in
/-- The main task writes nothing below the file size. -/
theorem MainMove.writes {event : MainEvent} {phase : Phase} (move : MainMove job disk multi event after phase)
    {position : Nat} (inside : position < job.fileSize) :
    (after.cell position).writes = (disk.cell position).writes := by
  cases move with
  | notCreated | notResized | join | conclude | reopened | notReopened => rfl
  | created => rw [Disk.cell_openCreate]
  | resized => rw [Disk.cell_setLen inside]
  | settled ok | finalSync ok =>
      cases ok with
      | false => rfl
      | true => exact Disk.writes_sync position
  | discarded ok | deleted ok => cases ok <;> rfl

/-- The state task writes nothing to the data file. -/
theorem writes_saver (effect : SaverEffect) (position : Nat) :
    ((applySaverEffect disk effect).cell position).writes = (disk.cell position).writes := by
  cases effect with
  | none | save => rfl
  | sync => exact Disk.writes_sync position

/-- Every cell below the file size keeps its writes and may gain one. -/
theorem Change.writes (change : Change right io job disk multi act after next) {position : Nat}
    (inside : position < job.fileSize) : (disk.cell position).writes ≤ (after.cell position).writes := by
  have written : ∀ offset bytes, (disk.cell position).writes ≤ ((disk.write offset bytes).cell position).writes := by
    intro offset bytes
    rcases disk.cell_write_cases offset bytes position with same | ⟨byte, put⟩
    · rw [same]
    · rw [put]
      exact Nat.le_succ _
  cases change with
  | cancelled => exact Nat.le_refl _
  | landed | lost | orphanLanded | orphanLost => exact written _ _
  | worker index event worker moved effect =>
      cases effect with
      | none | add | orphan => exact Nat.le_refl _
      | write => exact written _ _
  | saver event stopping moved effect => exact Nat.le_of_eq (writes_saver effect position).symm
  | main event _ phase move => exact Nat.le_of_eq (move.writes inside).symm

/-- No worker is marked beyond the bytes that it has handed over. -/
def Level (multi : Multi) : Prop := ∀ worker ∈ multi.workers, worker.current ≤ worker.handed

theorem begin_level (multi : Multi) (ranges : List WorkerRange) : (multi.begin ranges).Level := by
  intro worker member
  obtain ⟨range, _, rfl⟩ := List.mem_map.mp member
  exact Nat.le_refl _

/-- Only an answer 416 marks bytes that were not handed over. -/
theorem Level.change (level : multi.Level) (satisfiable : ∀ response ∈ act.answer, response.status ≠ 416)
    (change : Change right io job disk multi act after next) : next.Level := by
  cases change with
  | cancelled | main | saver | orphanLanded | orphanLost => exact level
  | landed index worker offset bytes present carried | lost index _ worker offset bytes present carried =>
      exact forall_mem_set level (level worker (List.mem_of_getElem? present))
  | worker index event worker moved effect running present facts parked =>
      have before := level worker (List.mem_of_getElem? present)
      have kept : moved.current ≤ moved.handed := by
        cases facts.moved with
        | control rests | torn _ _ _ _ _ _ rests | dropped _ _ rests =>
            rw [rests.current, rests.handed]
            exact before
        | wrote _ _ accepts | passed _ _ accepts =>
            rw [accepts.current, accepts.handed]
            omega
        | stored here _ handed =>
            rw [here, handed]
        | counted handed current =>
            rw [current, handed]
            exact before
        | marked response answered status =>
            subst answered
            exact absurd status (satisfiable response rfl)
      cases effect <;> exact forall_mem_set level kept

omit [SerdeJson Text] in
/-- A checkpoint names only offsets that are done. -/
theorem Tracked.taken_done {ledger : Ledger right} (tracked : Tracked ledger job disk multi) (level : multi.Level)
    {state : DownloadState} (taken : Taken job multi.workers state) {position : Nat}
    (named : Named state.workers position) : ledger.done position (disk.cell position) := by
  obtain ⟨worker, member, lower, upper⟩ := taken.named named
  have handed := level worker member
  have inside := (tracked.controlled.sound worker member).handed_le
  exact (tracked.recorded worker member position lower (by omega)).1 (by omega)

end Multi

end FastDownloader
