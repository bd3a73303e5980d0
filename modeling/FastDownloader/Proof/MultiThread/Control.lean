/-
This file proves what every step of a call keeps, in any interleaving and with either kind of write.
-/

import FastDownloader.Proof.MultiThread.Snapshot

namespace FastDownloader

open Foundation

/-- The workers have joined, so no position moves any more. -/
def Phase.joined : Phase → Bool
  | .stopping | .discarding _ | .reopening | .finalSync | .deleting => true
  | .returned (.ok _) => true
  | _ => false

/-- The byte count has passed the final check. -/
def Phase.checked : Phase → Bool
  | .reopening | .finalSync | .deleting => true
  | .returned (.ok _) => true
  | _ => false

theorem Phase.checked_joined {phase : Phase} (passed : phase.checked = true) : phase.joined = true := by
  unfold checked at passed
  split at passed
  · rfl
  · rfl
  · rfl
  · rfl
  · cases passed

/-- The data file has its full length from the resize on. -/
def Phase.sized : Phase → Bool
  | .settling | .running | .stopping | .discarding _ | .reopening | .finalSync | .deleting => true
  | .returned (.ok _) => true
  | _ => false

/-- The response that an act delivers to a worker. -/
def Act.answer : Act → Option Response
  | .worker _ (.reply answer) => answer
  | _ => none

namespace Multi

variable {Text : Type} [SerdeJson Text]

/-- A worker that is not counted yet has written bytes that the counter misses. -/
def uncounted (multi : Multi) : Nat := (multi.workers.map Worker.uncounted).sum

/-- These bytes count as accepted, in this run or in the run that saved them. -/
def accepted (multi : Multi) : Nat := (multi.workers.map fun worker => worker.handed - worker.start).sum

/-- These facts hold from the choice of the ranges on. -/
structure Controlled (right : Nat → UInt8 → Prop) (job : Job) (multi : Multi) : Prop where
  begun : multi.phase ≠ .loading
  tiles : Tiles Worker.start Worker.stop 0 job.fileSize multi.workers
  nonempty : multi.workers ≠ []
  sound : ∀ worker ∈ multi.workers, worker.Sound right
  parked : ∀ worker ∈ multi.workers, worker.Parked
  counter : multi.downloaded + multi.uncounted = multi.accepted
  saver : multi.saver.Sound job multi.workers
  joined : multi.phase.joined = true → ∀ worker ∈ multi.workers, worker.finished = true
  checked : multi.phase.checked = true → multi.downloaded = job.fileSize

theorem Controlled.bounded {right : Nat → UInt8 → Prop} {job : Job} {multi : Multi}
    (controlled : Controlled right job multi) :
    ∀ worker ∈ multi.workers, worker.start ≤ worker.current ∧ worker.current ≤ worker.stop :=
  fun worker member => ⟨(controlled.sound worker member).start_le, (controlled.sound worker member).current_le⟩

/-- The chosen ranges are the saved ones of an accepted state or a fresh split. -/
theorem chooseRanges_cases {job : Job} {fileSize : Nat} {file : Option Text} {ranges : List WorkerRange}
    (chosen : chooseRanges job fileSize file = some ranges) :
    (∃ state, load file = .ok state ∧ resumable job.info fileSize state = true ∧ state.workers = ranges) ∨
      ((∀ state, load file = .ok state → resumable job.info fileSize state = false) ∧
        splitWorkers fileSize job.threadCount job.cfg.minChunkSize = some ranges) := by
  unfold chooseRanges at chosen
  split at chosen
  · rename_i state loaded
    split_ifs at chosen with accepted
    · exact Or.inl ⟨state, loaded, accepted, Option.some.inj chosen⟩
    · refine Or.inr ⟨fun other same => ?_, chosen⟩
      obtain rfl := Except.ok.inj (loaded.symm.trans same)
      exact Bool.eq_false_iff.mpr accepted
  · rename_i failed
    refine Or.inr ⟨fun state loaded => ?_, chosen⟩
    rw [failed] at loaded
    cases loaded

theorem resumable_iff (info : FileInfo) (fileSize : Nat) (state : DownloadState) :
    resumable info fileSize state = true ↔
      state.fileSize = fileSize ∧ state.workers ≠ [] ∧
        state.matchesResource info.etag info.lastModified = true := by
  simp [resumable, and_assoc]

/-- The chosen ranges always cover the file. -/
theorem chooseRanges_cover {job : Job} {fileSize : Nat} {file : Option Text} {ranges : List WorkerRange}
    (chosen : chooseRanges job fileSize file = some ranges) : ExactCover fileSize ranges ∧ ranges ≠ [] := by
  rcases chooseRanges_cases chosen with ⟨state, loaded, accepted, rfl⟩ | ⟨_, split⟩
  · obtain ⟨_, _, _, valid⟩ := (load_ok_iff _ _).mp loaded
    obtain ⟨_, nonempty, cover⟩ := (validate_ok_iff state).mp valid
    exact ⟨((resumable_iff _ _ _).mp accepted).1 ▸ cover, nonempty⟩
  · exact ⟨(splitWorkers_cover split).1, splitWorkers_ne_nil split⟩

/-- A call that has chosen covering ranges is controlled. -/
theorem begin_controlled {right : Nat → UInt8 → Prop} {job : Job} {multi : Multi} {ranges : List WorkerRange}
    (cover : ExactCover job.fileSize ranges) (nonempty : ranges ≠ [])
    (fresh : multi.saver.pc = .starting) : Controlled right job (multi.begin ranges) where
  begun := by simp [Multi.begin]
  tiles := cover.tiles.congr (List.forall₂_map_right_iff.mpr (List.forall₂_same.mpr fun _ _ => ⟨rfl, rfl⟩))
  nonempty := by simpa [Multi.begin] using nonempty
  sound := by
    intro worker member
    obtain ⟨range, present, rfl⟩ := List.mem_map.mp member
    exact Worker.spawn_sound (cover.within range present)
  parked := by
    intro worker member _
    obtain ⟨range, _, rfl⟩ := List.mem_map.mp member
    rfl
  counter := by
    have none_uncounted : (multi.begin ranges).uncounted = 0 := by
      simp [uncounted, Multi.begin, Function.comp_def]
    rw [none_uncounted]
    simp only [accepted, Multi.begin, List.map_map]
    rfl
  saver := by simp [Saver.Sound, Multi.begin, fresh]
  joined := by simp [Multi.begin, Phase.joined]
  checked := by simp [Multi.begin, Phase.checked]

/-- These are the transitions of the main task after its load. -/
inductive MainMove (job : Job) (disk : Disk Text) (multi : Multi) : MainEvent → Disk Text → Phase → Prop
  | created (at_phase : multi.phase = .opening) :
      MainMove job disk multi (.created true) disk.openCreate .sizing
  | notCreated (at_phase : multi.phase = .opening) :
      MainMove job disk multi (.created false) disk (.returned (.error .io))
  | resized (at_phase : multi.phase = .sizing) :
      MainMove job disk multi (.resized true) (disk.setLen job.fileSize) .settling
  | notResized (at_phase : multi.phase = .sizing) :
      MainMove job disk multi (.resized false) disk (.returned (.error .io))
  | settled (ok : Bool) (at_phase : multi.phase = .settling) :
      MainMove job disk multi (.synced ok) (if ok then disk.sync else disk) .running
  | join (at_phase : multi.phase = .running)
      (finished : ∀ worker ∈ multi.workers, worker.finished = true) :
      MainMove job disk multi .join disk .stopping
  | conclude (at_phase : multi.phase = .stopping) (saved : multi.saver.pc = .finished) :
      MainMove job disk multi .conclude disk (multi.verdict job)
  | discarded (ok : Bool) (error : Error) (at_phase : multi.phase = .discarding error) :
      MainMove job disk multi (.deleted ok) (if ok then disk.deleteState else disk) (.returned (.error error))
  | reopened (at_phase : multi.phase = .reopening) : MainMove job disk multi (.created true) disk .finalSync
  | notReopened (at_phase : multi.phase = .reopening) :
      MainMove job disk multi (.created false) disk (.returned (.error .io))
  | finalSync (ok : Bool) (at_phase : multi.phase = .finalSync) :
      MainMove job disk multi (.synced ok) (if ok then disk.sync else disk) .deleting
  | deleted (ok : Bool) (at_phase : multi.phase = .deleting) :
      MainMove job disk multi (.deleted ok) (if ok then disk.deleteState else disk) (.returned (.ok ()))

/-- A main step after the load moves only the phase and the disk. -/
theorem mainStep_move {job : Job} {disk : Disk Text} {multi : Multi} {event : MainEvent}
    {next : Disk Text × Multi} (later : multi.phase ≠ .loading)
    (taken : mainStep job disk multi event = some next) :
    ∃ phase, next.2 = { multi with phase := phase } ∧ MainMove job disk multi event next.1 phase := by
  unfold mainStep at taken
  split at taken <;> rename_i at_phase
  · exact absurd at_phase later
  · split_ifs at taken with ok <;> cases taken
    · exact ⟨_, rfl, ok ▸ .created at_phase⟩
    · exact ⟨_, rfl, Bool.eq_false_iff.mpr ok ▸ .notCreated at_phase⟩
  · split_ifs at taken with ok <;> cases taken
    · exact ⟨_, rfl, ok ▸ .resized at_phase⟩
    · exact ⟨_, rfl, Bool.eq_false_iff.mpr ok ▸ .notResized at_phase⟩
  · cases taken
    exact ⟨_, rfl, .settled _ at_phase⟩
  · split_ifs at taken with finished
    cases taken
    exact ⟨_, rfl, .join at_phase (List.all_eq_true.mp finished)⟩
  · split_ifs at taken with saved
    cases taken
    exact ⟨_, rfl, .conclude at_phase saved⟩
  · cases taken
    exact ⟨_, rfl, .discarded _ _ at_phase⟩
  · split_ifs at taken with ok <;> cases taken
    · exact ⟨_, rfl, ok ▸ .reopened at_phase⟩
    · exact ⟨_, rfl, Bool.eq_false_iff.mpr ok ▸ .notReopened at_phase⟩
  · cases taken
    exact ⟨_, rfl, .finalSync _ at_phase⟩
  · cases taken
    exact ⟨_, rfl, .deleted _ at_phase⟩
  · cases taken

/-- The load returns an error, panics, or begins with covering ranges. -/
theorem loadStep_cases {job : Job} {disk : Disk Text} {multi : Multi} {event : MainEvent}
    {next : Disk Text × Multi} (at_phase : multi.phase = .loading)
    (taken : mainStep job disk multi event = some next) :
    next.1 = disk ∧ ∃ readable, event = .load readable ∧
      ((job.info.size = none ∧ next.2 = { multi with phase := .returned (.error .unknownLength) }) ∨
        (job.fileSize = 0 ∧ next.2 = { multi with phase := .panicked }) ∨
        ∃ ranges, chooseRanges job job.fileSize (if readable then disk.dlstate else none) = some ranges ∧
          next.2 = multi.begin ranges) := by
  unfold mainStep at taken
  rw [at_phase] at taken
  split at taken <;> rename_i same <;> try cases same
  · split at taken
    · rename_i unknown
      cases taken
      exact ⟨rfl, _, rfl, Or.inl ⟨unknown, rfl⟩⟩
    · rename_i fileSize known
      have size : job.fileSize = fileSize := by simp [Job.fileSize, known]
      rw [← size] at taken
      split at taken
      · rename_i failed
        cases taken
        refine ⟨rfl, _, rfl, Or.inr (Or.inl ⟨?_, rfl⟩)⟩
        by_contra positive
        have split : (splitWorkers job.fileSize job.threadCount job.cfg.minChunkSize).isSome := by
          simp [splitWorkers, Nat.pos_of_ne_zero positive]
        unfold chooseRanges at failed
        split at failed
        · split_ifs at failed
          rw [failed] at split
          cases split
        · rw [failed] at split
          cases split
      · rename_i ranges chosen
        cases taken
        exact ⟨rfl, _, rfl, Or.inr (Or.inr ⟨ranges, chosen, rfl⟩)⟩
  · cases taken

omit [SerdeJson Text] in
/-- A background write ends only where a handle carries one. -/
theorem landStep_busy {disk : Disk Text} {multi : Multi} {index : Nat} {kept : Option Nat}
    {next : Disk Text × Multi} (taken : landStep disk multi index kept = some next) :
    ∃ worker offset bytes, multi.workers[index]? = some worker ∧ worker.handle = .busy offset bytes := by
  unfold landStep at taken
  split at taken
  · rename_i worker present
    cases carried : worker.handle with
    | busy offset bytes => exact ⟨worker, offset, bytes, present, carried⟩
    | closed | idle | failed => simp [carried] at taken
  · cases taken

omit [SerdeJson Text] in
/-- The write of a dropped handle ends only where there is one. -/
theorem orphanStep_present {disk : Disk Text} {multi : Multi} {index : Nat} {kept : Option Nat}
    {next : Disk Text × Multi} (taken : orphanStep disk multi index kept = some next) :
    ∃ offset bytes, multi.orphans[index]? = some (offset, bytes) := by
  unfold orphanStep at taken
  split at taken
  · exact ⟨_, _, by assumption⟩
  · exact ⟨_, _, by assumption⟩
  · cases taken

/-- These are the transitions of the whole call after its load. -/
inductive Change (right : Nat → UInt8 → Prop) (io : FileIo) (job : Job) (disk : Disk Text) (multi : Multi) :
    Act → Disk Text → Multi → Prop
  | cancelled : Change right io job disk multi .cancel disk { multi with cancelled := true }
  | main (event : MainEvent) (after : Disk Text) (phase : Phase)
      (move : MainMove job disk multi event after phase) :
      Change right io job disk multi (.main event) after { multi with phase := phase }
  | worker (index : Nat) (event : WorkerEvent) (worker next : Worker) (effect : Effect)
      (running : multi.phase = .running) (present : multi.workers[index]? = some worker)
      (facts : worker.StepFacts right io event next effect) (parked : next.Parked) :
      Change right io job disk multi (.worker index event)
        (applyEffect disk { multi with workers := multi.workers.set index next } effect).1
        (applyEffect disk { multi with workers := multi.workers.set index next } effect).2
  | saver (event : SaverEvent) (stopping : Bool) (next : Saver) (effect : SaverEffect)
      (during : multi.phase = if stopping then .stopping else .running)
      (move : SaverMove job multi.workers stopping multi.saver event next effect) :
      Change right io job disk multi (.saver event) (applySaverEffect disk effect) { multi with saver := next }
  | landed (index : Nat) (worker : Worker) (offset : Nat) (bytes : List UInt8)
      (present : multi.workers[index]? = some worker) (carried : worker.handle = .busy offset bytes) :
      Change right io job disk multi (.land index) (disk.write offset bytes)
        { multi with workers := multi.workers.set index { worker with handle := .idle } }
  | lost (index kept : Nat) (worker : Worker) (offset : Nat) (bytes : List UInt8)
      (present : multi.workers[index]? = some worker) (carried : worker.handle = .busy offset bytes) :
      Change right io job disk multi (.lose index kept) (disk.write offset (bytes.take kept))
        { multi with
          workers := multi.workers.set index { worker with handle := .failed }
          lost := (offset + kept, bytes.drop kept) :: multi.lost }
  | orphanLanded (index offset : Nat) (bytes : List UInt8)
      (present : multi.orphans[index]? = some (offset, bytes)) :
      Change right io job disk multi (.landOrphan index) (disk.write offset bytes)
        { multi with orphans := multi.orphans.eraseIdx index }
  | orphanLost (index kept offset : Nat) (bytes : List UInt8)
      (present : multi.orphans[index]? = some (offset, bytes)) :
      Change right io job disk multi (.loseOrphan index kept) (disk.write offset (bytes.take kept))
        { multi with
          orphans := multi.orphans.eraseIdx index
          lost := (offset + kept, bytes.drop kept) :: multi.lost }

/-- Every answer 206 carries the right bytes for the range of its worker. -/
def Answered (right : Nat → UInt8 → Prop) (multi : Multi) : Act → Prop
  | .worker index event => ∀ worker ∈ multi.workers[index]?, worker.Answered right event
  | _ => True

instance (right : Nat → UInt8 → Prop) [∀ position byte, Decidable (right position byte)] (multi : Multi) :
    ∀ act, Decidable (multi.Answered right act)
  | .worker index event =>
      inferInstanceAs (Decidable (∀ worker ∈ multi.workers[index]?, worker.Answered right event))
  | .cancel | .main _ | .saver _ | .land _ | .lose _ _ | .landOrphan _ | .loseOrphan _ _ => .isTrue trivial

variable {right : Nat → UInt8 → Prop} {io : FileIo} {job : Job} {disk : Disk Text} {multi : Multi} {act : Act}
  {next : Disk Text × Multi}

/-- A step of a controlled call is one of the listed transitions. -/
theorem Controlled.step_change (controlled : Controlled right job multi) (answered : multi.Answered right act)
    (taken : Multi.step io job (disk, multi) act = some next) :
    Change right io job disk multi act next.1 next.2 := by
  cases act with
  | cancel =>
      cases taken
      exact .cancelled
  | main event =>
      obtain ⟨phase, same, move⟩ := mainStep_move controlled.begun taken
      rw [same]
      exact .main event _ phase move
  | worker index event =>
      simp only [step, workerStep] at taken
      split at taken
      · rename_i worker running present
        obtain ⟨⟨after, effect⟩, stepped, rfl⟩ := Option.map_eq_some_iff.mp taken
        have member := List.mem_of_getElem? present
        have parked := controlled.parked worker member
        exact .worker index event worker after effect running present
          (Worker.step_facts (controlled.sound worker member) parked (answered worker present) stepped)
          (Worker.step_parked parked stepped)
      · cases taken
  | saver event =>
      simp only [step, saverStep] at taken
      split at taken
      · rename_i running
        obtain ⟨⟨after, effect⟩, stepped, rfl⟩ := Option.map_eq_some_iff.mp taken
        exact .saver event false after effect running (Saver.step_move stepped)
      · rename_i stopping
        obtain ⟨⟨after, effect⟩, stepped, rfl⟩ := Option.map_eq_some_iff.mp taken
        exact .saver event true after effect stopping (Saver.step_move stepped)
      · cases taken
  | land index =>
      obtain ⟨worker, offset, bytes, present, carried⟩ := landStep_busy taken
      simp only [step, landStep, present, carried] at taken
      cases taken
      exact .landed index worker offset bytes present carried
  | lose index kept =>
      obtain ⟨worker, offset, bytes, present, carried⟩ := landStep_busy taken
      simp only [step, landStep, present, carried] at taken
      cases taken
      exact .lost index kept worker offset bytes present carried
  | landOrphan index =>
      obtain ⟨offset, bytes, present⟩ := orphanStep_present taken
      simp only [step, orphanStep, present] at taken
      cases taken
      exact .orphanLanded index offset bytes present
  | loseOrphan index kept =>
      obtain ⟨offset, bytes, present⟩ := orphanStep_present taken
      simp only [step, orphanStep, present] at taken
      cases taken
      exact .orphanLost index kept offset bytes present

end Multi

end FastDownloader
