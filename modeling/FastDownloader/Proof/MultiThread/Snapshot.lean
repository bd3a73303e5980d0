/-
This file relates the snapshots of the state task to the positions of the workers.
-/

import FastDownloader.Foundation.Slots
import FastDownloader.Model.MultiThread
import FastDownloader.Proof.State.Ranges
import FastDownloader.Proof.Worker.Step

namespace FastDownloader

open Foundation

/-- The worker keeps its range, and its positions never move back. -/
structure Worker.Grows (before after : Worker) : Prop where
  start : after.start = before.start
  stop : after.stop = before.stop
  current : before.current ≤ after.current
  handed : before.handed ≤ after.handed

namespace Worker

theorem Grows.refl (worker : Worker) : Grows worker worker := ⟨rfl, rfl, Nat.le_refl _, Nat.le_refl _⟩

/-- The stored range of a worker. -/
def range (worker : Worker) : WorkerRange := ⟨worker.start, worker.current, worker.stop⟩

theorem StepFacts.grows {right : Nat → UInt8 → Prop} {io : FileIo} {worker next : Worker}
    {event : WorkerEvent} {effect : Effect} (facts : StepFacts right io worker event next effect)
    (sound : worker.Sound right) : Grows worker next := by
  refine ⟨facts.start, facts.stop, ?_, ?_⟩
  · cases facts.moved with
    | control rests | torn _ _ _ _ _ _ rests | dropped _ _ rests => exact Nat.le_of_eq rests.current.symm
    | wrote _ _ accepts | passed _ _ accepts => exact Nat.le_of_eq accepts.current.symm
    | stored level grows => exact level ▸ grows
    | counted _ current => exact Nat.le_of_eq current.symm
    | marked _ _ _ current => exact current ▸ sound.current_le
  · cases facts.moved with
    | control rests | torn _ _ _ _ _ _ rests | dropped _ _ rests => exact Nat.le_of_eq rests.handed.symm
    | wrote _ _ accepts | passed _ _ accepts =>
        have := accepts.handed
        omega
    | stored _ _ handed | counted handed | marked _ _ _ _ handed => exact Nat.le_of_eq handed.symm

end Worker

/-- A saved range lies at or behind the position of its worker. -/
structure Behind (range : WorkerRange) (worker : Worker) : Prop where
  start : range.start = worker.start
  stop : range.stop = worker.stop
  start_le : worker.start ≤ range.current
  le_current : range.current ≤ worker.current

theorem Behind.grow {range : WorkerRange} {before after : Worker} (behind : Behind range before)
    (grows : before.Grows after) : Behind range after :=
  ⟨behind.start.trans grows.start.symm, behind.stop.trans grows.stop.symm, grows.start ▸ behind.start_le,
    behind.le_current.trans grows.current⟩

/-- The state was taken from positions that these workers have reached. -/
structure Taken (job : Job) (workers : List Worker) (state : DownloadState) : Prop where
  version : state.version = stateFileVersion
  fileSize : state.fileSize = job.fileSize
  etag : state.etag = job.info.etag
  lastModified : state.lastModified = job.info.lastModified
  behind : List.Forall₂ Behind state.workers workers

theorem Taken.grow {job : Job} {before after : List Worker} {state : DownloadState}
    (taken : Taken job before state) (grows : List.Forall₂ Worker.Grows before after) :
    Taken job after state :=
  ⟨taken.version, taken.fileSize, taken.etag, taken.lastModified,
    forall₂_trans (fun _ _ _ => Behind.grow) taken.behind grows⟩

/-- An offset that a snapshot names lies below the position of its worker. -/
theorem Taken.named {job : Job} {workers : List Worker} {state : DownloadState}
    (taken : Taken job workers state) {position : Nat} (named : Named state.workers position) :
    ∃ worker ∈ workers, worker.start ≤ position ∧ position < worker.current := by
  obtain ⟨range, member, lower, upper⟩ := named
  obtain ⟨index, present⟩ := List.getElem?_of_mem member
  obtain ⟨worker, found, behind⟩ := forall₂_getElem? taken.behind present
  exact ⟨worker, List.mem_of_getElem? found, behind.start ▸ lower, Nat.lt_of_lt_of_le upper behind.le_current⟩

/-- The saved positions lie in an exact cover of the file. -/
theorem Taken.cover {job : Job} {workers : List Worker} {state : DownloadState} {fileSize : Nat}
    (taken : Taken job workers state) (tiles : Tiles Worker.start Worker.stop 0 fileSize workers)
    (bounded : ∀ worker ∈ workers, worker.current ≤ worker.stop) :
    ExactCover fileSize state.workers := by
  constructor
  · refine tiles.congr (List.Forall₂.flip ?_)
    exact taken.behind.imp fun range worker behind => ⟨behind.start, behind.stop⟩
  · intro range member
    obtain ⟨index, present⟩ := List.getElem?_of_mem member
    obtain ⟨worker, found, behind⟩ := forall₂_getElem? taken.behind present
    have := bounded worker (List.mem_of_getElem? found)
    have := behind.start_le
    have := behind.le_current
    have := behind.start
    have := behind.stop
    omega

theorem Taken.ne_nil {job : Job} {workers : List Worker} {state : DownloadState}
    (taken : Taken job workers state) (some_worker : workers ≠ []) : state.workers ≠ [] := by
  intro empty
  have same := taken.behind.length_eq
  rw [empty] at same
  exact some_worker (List.length_eq_zero_iff.mp same.symm)

/-- A snapshot of a covered file passes the check of `load`. -/
theorem Taken.validate {job : Job} {workers : List Worker} {state : DownloadState}
    (taken : Taken job workers state) (tiles : Tiles Worker.start Worker.stop 0 job.fileSize workers)
    (bounded : ∀ worker ∈ workers, worker.current ≤ worker.stop) (some_worker : workers ≠ []) :
    state.validate = .ok () := by
  have cover := taken.cover tiles bounded
  exact (validate_ok_iff state).mpr ⟨taken.version, taken.ne_nil some_worker, taken.fileSize ▸ cover⟩

/-- Every shape of validators matches itself. -/
theorem matchesResource_self (state : DownloadState) :
    state.matchesResource state.etag state.lastModified = true := by
  have dates : matchesLastModified state.lastModified state.lastModified = true := by
    cases state.lastModified <;> simp [matchesLastModified]
  cases tag : state.etag with
  | none => simp [DownloadState.matchesResource, tag, dates]
  | some saved => simp [DownloadState.matchesResource, tag, dates]

/-- The resume guard accepts a snapshot of the same resource. -/
theorem Taken.resumable {job : Job} {workers : List Worker} {state : DownloadState}
    (taken : Taken job workers state) (some_worker : workers ≠ []) :
    Multi.resumable job.info job.fileSize state = true := by
  have nonempty := taken.ne_nil some_worker
  have self := matchesResource_self state
  rw [taken.etag, taken.lastModified] at self
  simp [Multi.resumable, taken.fileSize, nonempty, self]

/-- The value was a position of this worker at some moment. -/
def Reached (value : Nat) (worker : Worker) : Prop := worker.start ≤ value ∧ value ≤ worker.current

theorem snapshot_taken {job : Job} {workers : List Worker} {loaded : List Nat}
    (reached : List.Forall₂ Reached loaded workers) : Taken job workers (snapshot job workers loaded) := by
  refine ⟨rfl, rfl, rfl, rfl, ?_⟩
  simp only [snapshot, DownloadState.withResourceId, DownloadState.new]
  induction reached with
  | nil => exact .nil
  | cons head _ ih => exact .cons ⟨rfl, rfl, head.1, head.2⟩ ih

/-- The state task holds only values that the workers have reached. -/
def Saver.Sound (job : Job) (workers : List Worker) (saver : Saver) : Prop :=
  match saver.pc with
  | .loading loaded => List.Forall₂ Reached loaded (workers.take loaded.length)
  | .syncing state => Taken job workers state
  | .saving state => Taken job workers state
  | _ => True

theorem Saver.Sound.grow {job : Job} {before after : List Worker} {saver : Saver}
    (sound : saver.Sound job before) (grows : List.Forall₂ Worker.Grows before after) :
    saver.Sound job after := by
  unfold Saver.Sound at *
  split at sound
  · refine forall₂_trans (fun value a b reached grown => ?_) sound (List.forall₂_take _ grows)
    exact ⟨grown.start ▸ reached.1, reached.2.trans grown.current⟩
  · exact sound.grow grows
  · exact sound.grow grows
  · trivial

/-- These are the transitions of the state task. -/
inductive SaverMove (job : Job) (workers : List Worker) (stopping : Bool) (saver : Saver) :
    SaverEvent → Saver → SaverEffect → Prop
  | broken (ok : Bool) (at_pc : saver.pc = .starting) (unpaced : job.cfg.stateSaveInterval = 0) :
      SaverMove job workers stopping saver (.opened ok) { saver with pc := .finished } .none
  | opened (ok : Bool) (at_pc : saver.pc = .starting) (paced : job.cfg.stateSaveInterval ≠ 0) :
      SaverMove job workers stopping saver (.opened ok)
        { saver with pc := .idle, syncFile := job.cfg.durableResume && ok } .none
  | tick (at_pc : saver.pc = .idle) (running : stopping = false) :
      SaverMove job workers stopping saver .tick { saver with pc := .loading [] } .none
  | halt (at_pc : saver.pc = .idle) (stopped : stopping = true) :
      SaverMove job workers stopping saver .halt { saver with pc := .loading [], final := true } .none
  | load (loaded : List Nat) (worker : Worker) (at_pc : saver.pc = .loading loaded)
      (present : workers[loaded.length]? = some worker) :
      SaverMove job workers stopping saver .load
        { saver with pc := .loading (loaded ++ [min worker.current worker.stop]) } .none
  | take (loaded : List Nat) (at_pc : saver.pc = .loading loaded)
      (complete : workers[loaded.length]? = none) (pc : SaverPc)
      (next : pc = if saver.syncFile then .syncing (snapshot job workers loaded)
        else .saving (snapshot job workers loaded)) :
      SaverMove job workers stopping saver .load { saver with pc := pc } .none
  | synced (ok : Bool) (state : DownloadState) (at_pc : saver.pc = .syncing state) :
      SaverMove job workers stopping saver (.synced ok) { saver with pc := .saving state }
        (if ok then .sync else .none)
  | saved (ok : Bool) (state : DownloadState) (at_pc : saver.pc = .saving state) :
      SaverMove job workers stopping saver (.saved ok)
        { saver with pc := if saver.final then .finished else .idle } (if ok then .save state else .none)

theorem Saver.step_move {job : Job} {workers : List Worker} {stopping : Bool} {saver next : Saver}
    {event : SaverEvent} {effect : SaverEffect}
    (taken : saver.step job workers stopping event = some (next, effect)) :
    SaverMove job workers stopping saver event next effect := by
  unfold Saver.step at taken
  split at taken <;> rename_i at_pc
  · split_ifs at taken with unpaced <;> cases taken
    · exact .broken _ at_pc unpaced
    · exact .opened _ at_pc unpaced
  · split_ifs at taken with stopped
    cases taken
    exact .tick at_pc (by simpa using stopped)
  · split_ifs at taken with stopped
    cases taken
    exact .halt at_pc stopped
  · split at taken
    · rename_i present
      cases taken
      exact .load _ _ at_pc present
    · rename_i complete
      dsimp only at taken
      split_ifs at taken with durable <;> cases taken
      · exact .take _ at_pc complete _ (by rw [if_pos durable])
      · exact .take _ at_pc complete _ (by rw [if_neg durable])
  · cases taken
    exact .synced _ _ at_pc
  · cases taken
    exact .saved _ _ at_pc
  · cases taken

/-- A step of the state task keeps its values among the reached positions. -/
theorem SaverMove.sound {job : Job} {workers : List Worker} {stopping : Bool} {saver next : Saver}
    {event : SaverEvent} {effect : SaverEffect} (move : SaverMove job workers stopping saver event next effect)
    (sound : saver.Sound job workers)
    (bounded : ∀ worker ∈ workers, worker.start ≤ worker.current ∧ worker.current ≤ worker.stop) :
    next.Sound job workers := by
  unfold Saver.Sound at sound
  cases move with
  | broken | opened => trivial
  | tick | halt => simp [Saver.Sound]
  | load loaded worker at_pc present =>
      simp only [at_pc] at sound
      have inside := bounded worker (List.mem_of_getElem? present)
      simp only [Saver.Sound, List.length_append, List.length_singleton]
      rw [List.take_add_one, present]
      refine List.rel_append sound (.cons ?_ .nil)
      exact ⟨Nat.le_min.mpr ⟨inside.1, by omega⟩, Nat.min_le_left _ _⟩
  | take loaded at_pc complete pc chosen =>
      simp only [at_pc] at sound
      rw [List.take_of_length_le (List.getElem?_eq_none_iff.mp complete)] at sound
      have taken : Taken job workers (snapshot job workers loaded) := snapshot_taken sound
      subst chosen
      unfold Saver.Sound
      split_ifs <;> exact taken
  | synced ok state at_pc =>
      simp only [at_pc] at sound
      exact sound
  | saved ok state at_pc =>
      unfold Saver.Sound
      dsimp only
      split_ifs <;> trivial

/-- A state task with a period ends only with a save. -/
theorem SaverMove.ended {job : Job} {workers : List Worker} {stopping : Bool} {saver next : Saver}
    {event : SaverEvent} {effect : SaverEffect} (move : SaverMove job workers stopping saver event next effect)
    (paced : job.cfg.stateSaveInterval ≠ 0) (ended : next.pc = .finished) :
    saver.final = true ∧ ∃ ok state, saver.pc = .saving state ∧ event = .saved ok ∧
      effect = if ok then .save state else .none := by
  cases move with
  | broken _ _ unpaced => exact absurd unpaced paced
  | opened | tick | halt | load | synced => cases ended
  | take loaded at_pc complete pc chosen =>
      subst chosen
      dsimp only at ended
      split at ended <;> cases ended
  | saved ok state at_pc =>
      dsimp only at ended
      split_ifs at ended with final
      exact ⟨final, ok, state, at_pc, rfl, rfl⟩

/-- A save writes the snapshot that the state task holds. -/
theorem SaverMove.saving_pc {job : Job} {workers : List Worker} {stopping : Bool} {saver next : Saver}
    {event : SaverEvent} {state : DownloadState}
    (move : SaverMove job workers stopping saver event next (.save state)) : saver.pc = .saving state := by
  generalize effect : SaverEffect.save state = written at move
  cases move with
  | broken | opened | tick | halt | load | take => cases effect
  | synced ok => cases ok <;> cases effect
  | saved ok other at_pc =>
      cases ok with
      | false => cases effect
      | true =>
          cases effect
          exact at_pc

/-- The last checkpoint sees every worker at its final position. -/
def Saver.Exact (workers : List Worker) (saver : Saver) : Prop :=
  match saver.pc with
  | .loading loaded => loaded = (workers.take loaded.length).map Worker.current
  | .syncing state => state.workers = workers.map Worker.range
  | .saving state => state.workers = workers.map Worker.range
  | _ => True

theorem snapshot_exact (job : Job) (workers : List Worker) :
    (snapshot job workers (workers.map Worker.current)).workers = workers.map Worker.range := by
  simp only [snapshot, DownloadState.withResourceId, DownloadState.new, List.zipWith_map_right,
    List.zipWith_self]
  rfl

/-- Once the last checkpoint has begun, each step keeps it exact. -/
theorem SaverMove.exact {job : Job} {workers : List Worker} {stopping : Bool} {saver next : Saver}
    {event : SaverEvent} {effect : SaverEffect} (move : SaverMove job workers stopping saver event next effect)
    (kept : saver.final = true → saver.Exact workers)
    (bounded : ∀ worker ∈ workers, worker.current ≤ worker.stop) :
    next.final = true → next.Exact workers := by
  intro final
  cases move with
  | broken | opened | tick | halt => simp [Saver.Exact]
  | load loaded worker at_pc present =>
      have exact := kept final
      simp only [Saver.Exact, at_pc] at exact
      simp only [Saver.Exact, List.length_append, List.length_singleton]
      rw [List.take_add_one, present, List.map_append, ← exact,
        Nat.min_eq_left (bounded worker (List.mem_of_getElem? present))]
      rfl
  | take loaded at_pc complete pc chosen =>
      have exact := kept final
      simp only [Saver.Exact, at_pc] at exact
      rw [List.take_of_length_le (List.getElem?_eq_none_iff.mp complete)] at exact
      subst chosen exact
      unfold Saver.Exact
      split_ifs <;> exact snapshot_exact job workers
  | synced ok state at_pc =>
      have exact := kept final
      simp only [Saver.Exact, at_pc] at exact
      exact exact
  | saved ok state at_pc =>
      unfold Saver.Exact
      dsimp only
      split_ifs <;> trivial

end FastDownloader
