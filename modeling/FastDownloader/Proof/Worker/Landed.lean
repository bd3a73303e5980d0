/-
This file compares a worker whose writes go on in the background with one whose writes take effect at once.
-/

import FastDownloader.Proof.Worker.Step

namespace FastDownloader

/-- The handle once its background write has landed. -/
def Handle.landed : Handle → Handle
  | .busy _ _ => .idle
  | handle => handle

/-- Only the handle can tell that a write is still under way. -/
def Worker.landed (worker : Worker) : Worker := { worker with handle := worker.handle.landed }

/-- The worker drops no handle whose background write is still under way. -/
def Worker.Landing (cancelled : Bool) (worker : Worker) : WorkerEvent → Prop
  | .streamError => cancelled = true ∨ worker.handle.flight = none
  | _ => True

instance (cancelled : Bool) (worker : Worker) : ∀ event, Decidable (worker.Landing cancelled event)
  | .streamError => inferInstanceAs (Decidable (cancelled = true ∨ worker.handle.flight = none))
  | .check | .reply _ | .opened _ | .chunk _ | .streamEnd | .wrote | .writeFailed _ | .store | .count | .flushed _
  | .slept | .interrupted => .isTrue trivial

namespace Worker

variable {cfg : DownloaderConfig} {ifRange : Option String} {cancelled : Bool} {worker next : Worker}
  {event : WorkerEvent} {effect : Effect}

theorem landed_fail (worker : Worker) (error : Error) :
    worker.landed.fail cfg error = (worker.fail cfg error).landed := by
  unfold fail landed
  dsimp only
  split_ifs <;> rfl

theorem landed_onHead (worker : Worker) : worker.landed.onHead cancelled = (worker.onHead cancelled).landed := by
  unfold onHead landed
  split_ifs <;> rfl

theorem landed_onReply (worker : Worker) (pos : Nat) (response : Response) :
    worker.landed.onReply cfg ifRange pos response = (worker.onReply cfg ifRange pos response).landed := by
  unfold onReply
  split_ifs
  · rfl
  · rfl
  · rfl
  · rfl
  · exact landed_fail worker _

theorem landed_onChunk (worker : Worker) (segment : Segment) (size : Nat) :
    worker.landed.onChunk cancelled segment size = (worker.onChunk cancelled segment size).landed := by
  unfold onChunk writeLen landed
  dsimp only
  split_ifs <;> rfl

theorem landed_afterFlush (worker : Worker) (segment : Segment) :
    worker.landed.afterFlush segment = (worker.afterFlush segment).landed := by
  unfold afterFlush landed
  dsimp only
  split_ifs <;> rfl

theorem landed_onCount (worker : Worker) (segment : Segment) :
    worker.landed.onCount cfg segment = (worker.onCount cfg segment).landed := by
  unfold onCount
  split_ifs
  · rfl
  · exact landed_afterFlush worker segment

/-- A landed handle is dropped without a trace. -/
theorem landed_release (worker : Worker) : worker.landed.release = (worker.release.1.landed, .none) := by
  unfold release landed Handle.landed
  cases worker.handle <;> rfl

/-- This is what the step of the landed worker does to the file. -/
inductive Follows (worker next : Worker) : Effect → Effect → Prop
  | kept (effect : Effect) (quiet : effect = .none ∨ ∃ bytes, effect = .add bytes)
      (flight : next.handle.flight = worker.handle.flight) : Follows worker next effect effect
  | passed (placed : Nat × List UInt8) (free : worker.handle.flight = none)
      (flight : next.handle.flight = some placed) : Follows worker next .none (.write placed.1 placed.2)

/-- A step that touches neither the file nor the handle is the same step of the landed worker. -/
theorem follows_kept (healthy : worker.handle ≠ .failed) (quiet : effect = .none ∨ ∃ bytes, effect = .add bytes)
    (handle : next.handle = worker.handle)
    (taken : worker.landed.step .through cfg ifRange cancelled event = some (next.landed, effect)) :
    next.handle ≠ .failed ∧ ∃ shown, Follows worker next effect shown ∧
      worker.landed.step .through cfg ifRange cancelled event = some (next.landed, shown) :=
  ⟨handle ▸ healthy, effect, .kept effect quiet (congrArg Handle.flight handle), taken⟩

/-- So is a step that drops a handle without a write. -/
theorem follows_release {left : Worker} (handle : left.handle = worker.handle)
    (free : worker.handle.flight = none)
    (taken : worker.landed.step .through cfg ifRange cancelled event = some left.landed.release) :
    left.release.1.handle ≠ .failed ∧ ∃ shown, Follows worker left.release.1 left.release.2 shown ∧
      worker.landed.step .through cfg ifRange cancelled event = some (left.release.1.landed, shown) := by
  rw [landed_release] at taken
  rcases left.release_cases with ⟨_, released⟩ | ⟨offset, bytes, flight, _⟩
  · rw [released] at taken ⊢
    exact ⟨by simp, .none, .kept .none (Or.inl rfl) free.symm, taken⟩
  · rw [handle, free] at flight
    cases flight

/-- A flush in the background waits until the handle is idle. -/
theorem idle_of_flushReports {handle : Handle} {ok : Bool} (healthy : handle ≠ .failed)
    (reports : flushReports .background handle ok = true) : handle = .idle ∧ ok = true := by
  unfold flushReports at reports
  split at reports <;> simp_all

/-- A worker that drops no write moves as one whose writes take effect at once. -/
theorem step_landed (parked : worker.Parked) (healthy : worker.handle ≠ .failed)
    (landing : worker.Landing cancelled event)
    (taken : worker.step .background cfg ifRange cancelled event = some (next, effect)) :
    next.handle ≠ .failed ∧ ∃ shown, Follows worker next effect shown ∧
      worker.landed.step .through cfg ifRange cancelled event = some (next.landed, shown) := by
  have same : worker.landed.pc = worker.pc := rfl
  unfold step at taken
  split at taken <;> rename_i at_pc <;> try rw [at_pc] at same
  · cases taken
    refine follows_kept healthy (Or.inl rfl) (by unfold onHead; split_ifs <;> rfl) ?_
    simp only [step, same, landed_onHead]
  · cases taken
    refine follows_kept healthy (Or.inl rfl) (by simp) ?_
    simp only [step, same, landed_fail]
  · cases taken
    refine follows_kept healthy (Or.inl rfl) (by unfold onReply; split_ifs <;> simp) ?_
    simp only [step, same, landed_onReply]
  · cases taken
    have closed := parked (by simp [hasHandle, at_pc])
    refine ⟨by simp, .none, .kept .none (Or.inl rfl) closed.symm, ?_⟩
    simp only [step, same]
    rfl
  · cases taken
    refine follows_kept healthy (Or.inl rfl) (by simp) ?_
    simp only [step, same, landed_fail]
  · cases taken
    refine follows_kept healthy (Or.inl rfl) (by unfold onChunk; dsimp only; split_ifs <;> rfl) ?_
    simp only [step, same, landed_onChunk]
  · split_ifs at taken with empty
    cases taken
    refine follows_kept healthy (Or.inl rfl) rfl ?_
    simp only [step, same, empty, if_true]
    rfl
  · split_ifs at taken with stopped
    · cases taken
      refine follows_kept healthy (Or.inl rfl) rfl ?_
      simp only [step, same, stopped, if_true]
      rfl
    · obtain ⟨rfl, rfl⟩ := taken_eq taken
      refine follows_release (by simp) (landing.resolve_left stopped) ?_
      simp only [step, same, stopped, Bool.false_eq_true, if_false, landed_fail]
  · split at taken
    · rename_i mode
      cases mode
    · rename_i idle
      cases taken
      refine ⟨by simp, _, .passed (_, _) (by rw [idle]; rfl) rfl, ?_⟩
      simp only [step, same]
      rw [landed, landed, idle]
      rfl
    · cases taken
  · split at taken
    · rename_i mode
      cases mode
    · rename_i failed
      exact absurd failed healthy
    · cases taken
  · cases taken
    refine follows_kept healthy (Or.inl rfl) rfl ?_
    simp only [step, same]
    rfl
  · cases taken
    refine follows_kept healthy (Or.inr ⟨_, rfl⟩) (by unfold onCount; split_ifs <;> simp) ?_
    simp only [step, same, landed_onCount]
  · split_ifs at taken with reports fine <;> obtain ⟨idle, rfl⟩ := idle_of_flushReports healthy reports
    · obtain ⟨rfl, rfl⟩ := taken_eq taken
      refine follows_kept healthy (Or.inl rfl) (by simp) ?_
      simp only [step, same, flushReports, if_true, landed_afterFlush]
    · cases fine rfl
  · split_ifs at taken with reports fine <;> obtain ⟨idle, rfl⟩ := idle_of_flushReports healthy reports
    · obtain ⟨rfl, rfl⟩ := taken_eq taken
      refine follows_release rfl (by rw [idle]; rfl) ?_
      simp only [step, same, flushReports, if_true]
      rfl
    · cases fine rfl
  · split_ifs at taken with reports
    obtain ⟨idle, rfl⟩ := idle_of_flushReports healthy reports
    obtain ⟨rfl, rfl⟩ := taken_eq taken
    refine follows_release rfl (by rw [idle]; rfl) ?_
    simp only [step, same, flushReports, if_true]
    rfl
  · cases taken
    refine follows_kept healthy (Or.inl rfl) rfl ?_
    simp only [step, same]
    rfl
  · split_ifs at taken with stopped
    cases taken
    refine follows_kept healthy (Or.inl rfl) rfl ?_
    simp only [step, same, stopped, if_true]
    rfl
  · cases taken

end Worker

end FastDownloader
