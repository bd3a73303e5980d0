/-
This file proves that every transition of a call keeps it controlled.
-/

import FastDownloader.Proof.MultiThread.Control

namespace FastDownloader

open Foundation

variable {right : Nat → UInt8 → Prop} {io : FileIo}

/-- The bytes that an effect adds to the shared counter. -/
def Effect.added : Effect → Nat
  | .add bytes => bytes
  | _ => 0

namespace Worker

variable {worker next : Worker} {event : WorkerEvent} {effect : Effect}

/-- A worker step moves the counter and its own debt by what it hands over. -/
theorem StepFacts.balance (facts : worker.StepFacts right io event next effect) (sound : worker.Sound right) :
    effect.added + next.uncounted + (worker.handed - worker.start) =
      worker.uncounted + (next.handed - next.start) := by
  have floor := sound.start_le_handed
  rw [facts.start]
  cases facts.moved with
  | control rests | torn _ _ _ _ _ _ rests | dropped _ _ rests =>
      rw [rests.handed, rests.uncounted]
      simp only [Effect.added]
      omega
  | wrote bytes _ accepts | passed bytes _ accepts =>
      rw [accepts.handed, accepts.before, accepts.after]
      simp only [Effect.added]
      omega
  | stored _ _ handed uncounted | marked _ _ _ _ handed uncounted =>
      rw [handed, uncounted]
      simp only [Effect.added]
      omega
  | counted handed _ after =>
      rw [handed, after]
      simp only [Effect.added]
      omega

/-- The end of a background write changes nothing but the handle. -/
theorem Sound.rehandle (sound : worker.Sound right) (handle : Handle) :
    ({ worker with handle := handle } : Worker).Sound right :=
  ⟨sound.start_le, sound.current_le, sound.start_le_handed, sound.handed_le, sound.aligned⟩

theorem Grows.rehandle (worker : Worker) (handle : Handle) :
    Grows worker { worker with handle := handle } :=
  ⟨rfl, rfl, Nat.le_refl _, Nat.le_refl _⟩

end Worker

namespace Multi

variable {Text : Type} [SerdeJson Text] {job : Job} {disk after : Disk Text} {multi next : Multi} {act : Act}

/-- One worker moves on, and the counter follows. -/
theorem Controlled.replace (controlled : Controlled right job multi) {index : Nat} {worker moved : Worker}
    (present : multi.workers[index]? = some worker) (grows : worker.Grows moved) (sound : moved.Sound right)
    (parked : moved.Parked) (added : Nat)
    (balance : added + moved.uncounted + (worker.handed - worker.start) =
      worker.uncounted + (moved.handed - moved.start))
    (rests : multi.phase.joined = true → moved.finished = true ∧ added = 0) :
    Controlled right job { multi with
      workers := multi.workers.set index moved
      downloaded := multi.downloaded + added } := by
  have all := forall₂_set Worker.Grows.refl present grows
  have debt := sum_map_set Worker.uncounted moved present
  have total := sum_map_set (fun worker : Worker => worker.handed - worker.start) moved present
  have counter := controlled.counter
  refine ⟨controlled.begun, ?_, ?_, ?_, ?_, ?_, controlled.saver.grow all, ?_, ?_⟩
  · exact controlled.tiles.congr (all.imp fun _ _ grown => ⟨grown.start, grown.stop⟩)
  · simpa using controlled.nonempty
  · exact forall_mem_set controlled.sound sound
  · exact forall_mem_set controlled.parked parked
  · unfold uncounted accepted at *
    dsimp only at *
    omega
  · exact fun joined => forall_mem_set (controlled.joined joined) (rests joined).1
  · intro checked
    rw [(rests (Phase.checked_joined checked)).2]
    exact controlled.checked checked

/-- A worker keeps its place when its background write ends. -/
theorem Controlled.rehandle (controlled : Controlled right job multi) {index : Nat} {worker : Worker}
    (present : multi.workers[index]? = some worker) {handle : Handle} (free : handle.flight = none) :
    Controlled right job { multi with
      workers := multi.workers.set index { worker with handle := handle } } := by
  have member := List.mem_of_getElem? present
  refine controlled.replace present (.rehandle worker handle)
    ((controlled.sound worker member).rehandle handle) (fun _ => free) 0 ?_ ?_
  · dsimp only [Worker.uncounted]
    omega
  · exact fun joined => ⟨controlled.joined joined worker member, rfl⟩

/-- The other fields play no part in control. -/
theorem Controlled.transport (controlled : Controlled right job multi) (workers : next.workers = multi.workers)
    (downloaded : next.downloaded = multi.downloaded) (saver : next.saver.Sound job multi.workers)
    (begun : next.phase ≠ .loading)
    (joined : next.phase.joined = true → ∀ worker ∈ multi.workers, worker.finished = true)
    (checked : next.phase.checked = true → multi.downloaded = job.fileSize) :
    Controlled right job next := by
  refine ⟨begun, ?_, ?_, ?_, ?_, ?_, ?_, ?_, ?_⟩ <;> simp only [uncounted, accepted, workers, downloaded]
  · exact controlled.tiles
  · exact controlled.nonempty
  · exact controlled.sound
  · exact controlled.parked
  · exact controlled.counter
  · exact saver
  · exact joined
  · exact checked

/-- The verdict ends the call, discards the state, or goes on to the file. -/
theorem verdict_cases (job : Job) (multi : Multi) :
    (∃ error, multi.verdict job = .returned (.error error) ∧ error ≠ .resourceChanged) ∨
      multi.verdict job = .discarding .resourceChanged ∨
      (multi.verdict job = .reopening ∧ multi.downloaded = job.fileSize) := by
  unfold verdict concludeWith
  dsimp only
  by_cases cancelled : (collect multi.results).2 = true
  · rw [if_pos cancelled]
    exact Or.inl ⟨_, rfl, by simp⟩
  · rw [if_neg cancelled]
    cases (collect multi.results).1 with
    | some error =>
        dsimp only
        split_ifs with changed
        · exact Or.inr (Or.inl (by rw [(Error.isResourceChanged_iff error).mp changed]))
        · refine Or.inl ⟨error, rfl, fun same => changed ?_⟩
          exact (Error.isResourceChanged_iff error).mpr same
    | none =>
        dsimp only
        split_ifs with short
        · exact Or.inl ⟨_, rfl, by simp⟩
        · exact Or.inr (Or.inr ⟨rfl, not_not.mp short⟩)

theorem verdict_ne_loading (job : Job) (multi : Multi) : multi.verdict job ≠ .loading := by
  rcases verdict_cases job multi with ⟨_, same, _⟩ | same | ⟨same, _⟩ <;> simp [same]

omit [SerdeJson Text] in
/-- A main step keeps the call past its load. It joins only finished workers and checks the byte count. -/
theorem Controlled.main (controlled : Controlled right job multi) {event : MainEvent} {phase : Phase}
    (move : MainMove job disk multi event after phase) :
    Controlled right job { multi with phase := phase } := by
  have joined := controlled.joined
  have checked := controlled.checked
  refine controlled.transport rfl rfl controlled.saver ?_ ?_ ?_
  · cases move with
    | conclude => exact verdict_ne_loading job multi
    | _ => simp
  · cases move with
    | join at_phase finished => exact fun _ => finished
    | conclude at_phase | reopened at_phase | finalSync ok at_phase | deleted ok at_phase =>
        exact fun _ => joined (by simp [at_phase, Phase.joined])
    | _ => simp [Phase.joined]
  · cases move with
    | conclude at_phase =>
        rcases verdict_cases job multi with ⟨_, same, _⟩ | same | ⟨same, full⟩ <;> rw [same]
        · simp [Phase.checked]
        · simp [Phase.checked]
        · exact fun _ => full
    | reopened at_phase | finalSync ok at_phase | deleted ok at_phase =>
        exact fun _ => checked (by simp [at_phase, Phase.checked])
    | _ => simp [Phase.checked]

/-- The positions of every worker only grow. -/
theorem Change.grows (change : Change right io job disk multi act after next)
    (controlled : Controlled right job multi) : List.Forall₂ Worker.Grows multi.workers next.workers := by
  have same : List.Forall₂ Worker.Grows multi.workers multi.workers :=
    List.forall₂_same.mpr fun worker _ => .refl worker
  cases change with
  | cancelled | main | saver | orphanLanded | orphanLost => exact same
  | worker index event worker moved effect running present facts parked =>
      have grown := facts.grows (controlled.sound worker (List.mem_of_getElem? present))
      cases effect <;> exact forall₂_set Worker.Grows.refl present grown
  | landed index worker offset bytes present carried =>
      exact forall₂_set Worker.Grows.refl present (.rehandle worker _)
  | lost index kept worker offset bytes present carried =>
      exact forall₂_set Worker.Grows.refl present (.rehandle worker _)

/-- Every transition keeps a controlled call controlled. -/
theorem Controlled.change (controlled : Controlled right job multi)
    (change : Change right io job disk multi act after next) : Controlled right job next := by
  cases change with
  | cancelled =>
      exact controlled.transport rfl rfl controlled.saver controlled.begun controlled.joined controlled.checked
  | main event _ phase move => exact controlled.main move
  | worker index event worker moved effect running present facts parked =>
      have sound := controlled.sound worker (List.mem_of_getElem? present)
      have replaced := controlled.replace present (facts.grows sound) facts.sound parked effect.added
        (facts.balance sound) (by simp [running, Phase.joined])
      cases effect with
      | none | write | add => exact replaced
      | orphan =>
          exact replaced.transport rfl rfl replaced.saver replaced.begun replaced.joined replaced.checked
  | saver event stopping moved effect during move =>
      exact controlled.transport rfl rfl (move.sound controlled.saver controlled.bounded) controlled.begun
        controlled.joined controlled.checked
  | landed index worker offset bytes present carried => exact controlled.rehandle present rfl
  | lost index kept worker offset bytes present carried =>
      have free : Handle.failed.flight = none := rfl
      have moved := controlled.rehandle present free
      exact moved.transport rfl rfl moved.saver moved.begun moved.joined moved.checked
  | orphanLanded | orphanLost =>
      exact controlled.transport rfl rfl controlled.saver controlled.begun controlled.joined controlled.checked

/-- A finished worker has no debt to the counter. -/
theorem uncounted_of_finished {worker : Worker} (finished : worker.finished = true) : worker.uncounted = 0 := by
  unfold Worker.finished at finished
  unfold Worker.uncounted
  split at finished <;> simp_all

/-- The ranges of the workers make up the whole file. -/
theorem Controlled.covered (controlled : Controlled right job multi) :
    (multi.workers.map fun worker => worker.stop - worker.start).sum = job.fileSize := controlled.tiles.sum

theorem Controlled.accepted_within (controlled : Controlled right job multi) :
    ∀ worker ∈ multi.workers, worker.handed - worker.start ≤ worker.stop - worker.start :=
  fun worker member => Nat.sub_le_sub_right (controlled.sound worker member).handed_le _

/-- The accepted bytes are bytes of the file. -/
theorem Controlled.accepted_le (controlled : Controlled right job multi) : multi.accepted ≤ job.fileSize := by
  rw [← controlled.covered]
  exact List.sum_le_sum controlled.accepted_within

/-- The counter never counts more than the file. -/
theorem Controlled.downloaded_le (controlled : Controlled right job multi) : multi.downloaded ≤ job.fileSize := by
  have counter := controlled.counter
  have accepted := controlled.accepted_le
  omega

/-- A byte count that passes the final check means that every worker has handed over its whole range.
The answer 416 cannot stand in for bytes here, because it moves no byte count. -/
theorem Controlled.complete (controlled : Controlled right job multi) (checked : multi.phase.checked = true) :
    ∀ worker ∈ multi.workers, worker.handed = worker.stop := by
  have finished := controlled.joined (Phase.checked_joined checked)
  have settled : multi.uncounted = 0 := by
    refine List.sum_eq_zero fun debt member => ?_
    obtain ⟨worker, present, rfl⟩ := List.mem_map.mp member
    exact uncounted_of_finished (finished worker present)
  have accepted : multi.accepted = job.fileSize := by
    have counter := controlled.counter
    rw [settled, controlled.checked checked] at counter
    exact counter.symm
  have meets := eq_of_sum_eq controlled.accepted_within (accepted.trans controlled.covered.symm)
  intro worker member
  have := meets worker member
  have := (controlled.sound worker member).start_le_handed
  have := (controlled.sound worker member).handed_le
  omega

end Multi

end FastDownloader
