/-
This file shows that a worker whose token is set sends no request any more and comes to its end.
-/

import FastDownloader.Proof.Worker.Invariant
import FastDownloader.Proof.Worker.Move

namespace FastDownloader

/-- A dropped handle can leave one background write behind. -/
def Effect.orphans : Effect → Nat
  | .orphan _ _ => 1
  | _ => 0

namespace Worker

/-- The control points that are left once the token is set. -/
def windDown (worker : Worker) : Nat :=
  match worker.pc with
  | .sent _ => 10
  | .opening _ _ => 9
  | .writing _ _ => 8
  | .storing _ _ => 7
  | .counting _ _ => 6
  | .flushing _ => 5
  | .streaming _ => 4
  | .finishing | .cancelling => 3
  | .waiting => 2
  | .head => 1
  | .skipped | .done _ => 0

/-- A background write counts as one step and is begun by a step that counts as two. -/
def cancelRank (worker : Worker) : Nat := 2 * worker.windDown + worker.handle.flights

/-- A worker that uses its handle has opened it. -/
def Usable (worker : Worker) : Prop := worker.hasHandle = true → worker.handle ≠ .closed

variable {io : FileIo} {cfg : DownloaderConfig} {ifRange : Option String} {cancelled : Bool} {worker next : Worker}
  {event : WorkerEvent} {effect : Effect}

theorem fail_windDown (error : Error) : (worker.fail cfg error).windDown ≤ 2 := by
  unfold fail
  dsimp only
  split_ifs
  · exact Nat.zero_le 2
  · exact Nat.le_refl 2

theorem windDown_of_fallible (fallible : worker.fallible = true) : 3 ≤ worker.windDown := by
  unfold Worker.fallible at fallible
  unfold windDown
  split at fallible <;> simp_all

/-- A background write of a dropped handle is counted outside of the worker. -/
theorem release_cancelRank (worker : Worker) :
    worker.release.1.cancelRank + worker.release.2.orphans = worker.cancelRank := by
  unfold release
  split
  · rename_i offset bytes carried
    have heavy : Handle.flights (.busy offset bytes) = 1 := rfl
    have closed : Handle.flights .closed = 0 := rfl
    simp only [cancelRank, windDown, Effect.orphans, carried, heavy, closed, Nat.add_zero]
  · rename_i idle
    have light : worker.handle.flights = 0 := by
      unfold Handle.flights Handle.flight
      cases carried : worker.handle with
      | busy offset bytes => exact absurd carried (idle offset bytes)
      | _ => rfl
    have closed : Handle.flights .closed = 0 := rfl
    simp only [cancelRank, windDown, Effect.orphans, light, closed, Nat.add_zero]

theorem fail_cancelRank (fallible : worker.fallible = true) (error : Error) :
    (worker.fail cfg error).cancelRank < worker.cancelRank := by
  have high := windDown_of_fallible fallible
  have low : (worker.fail cfg error).windDown ≤ 2 := fail_windDown error
  simp only [cancelRank, fail_handle]
  omega

theorem flights_le (handle : Handle) : handle.flights ≤ 1 := by
  unfold Handle.flights
  split_ifs <;> omega

/-- A jump that keeps the handle falls when the new control point is nearer to the end. -/
theorem cancelRank_lt_of_handle (same : next.handle = worker.handle) (nearer : next.windDown < worker.windDown) :
    next.cancelRank < worker.cancelRank := by
  simp only [cancelRank, same]
  omega

/-- Each step of a cancelled worker brings it nearer to its end, and what it drops is counted. -/
theorem step_cancelRank (taken : worker.step io cfg ifRange true event = some (next, effect)) :
    next.cancelRank + effect.orphans < worker.cancelRank := by
  have move := step_move taken
  cases move with
  | checked at_pc =>
      unfold onHead
      rw [if_pos rfl]
      split_ifs <;> exact cancelRank_lt_of_handle rfl (by simp [windDown, at_pc])
  | answered pos response at_pc =>
      unfold onReply
      split_ifs
      · exact cancelRank_lt_of_handle rfl (by simp [windDown, at_pc])
      · exact cancelRank_lt_of_handle rfl (by simp [windDown, at_pc])
      · exact cancelRank_lt_of_handle rfl (by simp [windDown, at_pc])
      · exact cancelRank_lt_of_handle rfl (by simp [windDown, at_pc])
      · exact fail_cancelRank (by simp [fallible, at_pc]) _
  | opened pos body at_pc =>
      have light : Handle.flights .idle = 0 := rfl
      simp only [cancelRank, windDown, at_pc, light, Effect.orphans]
      omega
  | chunk segment size at_pc => exact cancelRank_lt_of_handle rfl (by simp [windDown, onChunk, at_pc])
  | ended segment at_pc => exact cancelRank_lt_of_handle rfl (by simp [windDown, at_pc])
  | stopped segment at_pc => exact cancelRank_lt_of_handle rfl (by simp [windDown, at_pc])
  | wrote segment bytes mode at_pc => exact cancelRank_lt_of_handle rfl (by simp [windDown, onWrote, at_pc])
  | passed segment bytes mode idle at_pc =>
      have light := flights_le (.busy segment.pos bytes)
      simp only [cancelRank, windDown, onWrote, at_pc, Effect.orphans]
      omega
  | torn segment bytes kept mode at_pc =>
      have falls : (worker.fail cfg .io).cancelRank < worker.cancelRank :=
        fail_cancelRank (by simp [fallible, at_pc]) .io
      have kept := release_cancelRank (worker.fail cfg .io)
      simp only [Effect.orphans]
      omega
  | stored segment written at_pc => exact cancelRank_lt_of_handle rfl (by simp [windDown, at_pc])
  | counted segment written at_pc =>
      refine cancelRank_lt_of_handle ?_ ?_ <;> unfold onCount afterFlush
      · split_ifs <;> rfl
      · split_ifs <;> simp [windDown, at_pc]
  | flushed segment at_pc =>
      refine cancelRank_lt_of_handle ?_ ?_ <;> unfold afterFlush
      · split_ifs <;> rfl
      · split_ifs <;> simp [windDown, at_pc]
  | finished at_pc reports =>
      rw [release_cancelRank]
      exact cancelRank_lt_of_handle rfl (by simp [windDown, at_pc])
  | gaveUp ok at_pc =>
      rw [release_cancelRank]
      exact cancelRank_lt_of_handle rfl (by simp [windDown, at_pc])
  | refused event error fault fallible shut => exact fail_cancelRank fallible error
  | broken event error fault fallible =>
      rw [release_cancelRank]
      exact fail_cancelRank fallible error
  | slept at_pc => exact cancelRank_lt_of_handle rfl (by simp [windDown, at_pc])
  | interrupted at_pc => exact cancelRank_lt_of_handle rfl (by simp [windDown, at_pc])

/-- No step of a cancelled worker sends a request. -/
theorem step_silent (taken : worker.step io cfg ifRange true event = some (next, effect)) : next.requested = none := by
  have failed : ∀ error, (worker.fail cfg error).requested = none := by
    intro error
    unfold fail
    dsimp only
    split_ifs <;> rfl
  have released : ∀ left : Worker, left.release.1.requested = left.requested := by
    intro left
    unfold release
    split <;> rfl
  have after : ∀ (left : Worker) segment, (left.afterFlush segment).requested = none := by
    intro left segment
    unfold afterFlush
    split_ifs <;> rfl
  have move := step_move taken
  cases move with
  | checked at_pc =>
      unfold onHead
      rw [if_pos rfl]
      split_ifs <;> rfl
  | answered pos response at_pc =>
      unfold onReply
      split_ifs
      · rfl
      · rfl
      · rfl
      · rfl
      · exact failed _
  | torn | broken => exact (released _).trans (failed _)
  | refused => exact failed _
  | counted segment written at_pc =>
      unfold onCount
      split_ifs
      · rfl
      · exact after _ _
  | flushed segment at_pc => exact after _ _
  | finished | gaveUp => exact released _
  | _ => rfl

/-- A handle is opened before it is used. -/
theorem step_usable (opened : worker.Usable) (taken : worker.step io cfg ifRange cancelled event = some (next, effect)) :
    next.Usable := by
  have shut : ∀ {after : Worker}, after.hasHandle = false → after.Usable := by
    intro after shut open_
    cases shut.symm.trans open_
  have failed : ∀ error, (worker.fail cfg error).hasHandle = false := by
    intro error
    unfold fail
    dsimp only
    split_ifs <;> rfl
  have released : ∀ left : Worker, left.release.1.hasHandle = left.hasHandle := by
    intro left
    unfold release
    split <;> rfl
  have after : worker.hasHandle = true → ∀ segment, (worker.afterFlush segment).Usable := by
    intro used segment
    unfold afterFlush
    split_ifs <;> exact fun _ => opened used
  have move := step_move taken
  cases move with
  | checked at_pc =>
      unfold onHead
      split_ifs <;> exact shut rfl
  | answered pos response at_pc =>
      unfold onReply
      split_ifs
      · exact shut rfl
      · exact shut rfl
      · exact shut rfl
      · exact shut rfl
      · exact shut (failed _)
  | opened => exact fun _ => by rintro ⟨⟩
  | passed => exact fun _ => by rintro ⟨⟩
  | torn | broken => exact shut ((released _).trans (failed _))
  | refused => exact shut (failed _)
  | chunk segment size at_pc =>
      have used : worker.hasHandle = true := by simp [hasHandle, at_pc]
      unfold onChunk
      dsimp only
      split_ifs <;> exact fun _ => opened used
  | counted segment written at_pc =>
      have used : worker.hasHandle = true := by simp [hasHandle, at_pc]
      unfold onCount
      split_ifs
      · exact fun _ => opened used
      · exact after used _
  | flushed segment at_pc => exact after (by simp [hasHandle, at_pc]) _
  | ended segment at_pc | stopped segment at_pc | wrote segment bytes mode at_pc | stored segment written at_pc =>
      exact fun _ => opened (by simp [hasHandle, at_pc])
  | finished | gaveUp => exact shut (released _)
  | slept | interrupted => exact shut rfl

theorem spawn_usable (range : WorkerRange) : (spawn range).Usable := by
  unfold spawn Usable
  dsimp only
  split_ifs <;> rintro ⟨⟩

/-- A worker that has not finished can take a step, or its background write can end. -/
theorem Usable.moves (opened : worker.Usable) (unfinished : worker.finished = false) :
    (∃ event, (worker.step io cfg ifRange true event).isSome = true) ∨
      ∃ offset bytes, worker.handle = .busy offset bytes := by
  have flushes : worker.hasHandle = true → (∃ ok, flushReports io worker.handle ok = true) ∨
      ∃ offset bytes, worker.handle = .busy offset bytes := by
    intro used
    cases io with
    | through => exact Or.inl ⟨true, rfl⟩
    | background =>
        cases carried : worker.handle with
        | closed => exact absurd carried (opened used)
        | idle => exact Or.inl ⟨true, rfl⟩
        | failed => exact Or.inl ⟨false, rfl⟩
        | busy offset bytes => exact Or.inr ⟨offset, bytes, rfl⟩
  cases at_pc : worker.pc with
  | skipped | done result => simp [finished, at_pc] at unfinished
  | head => exact Or.inl ⟨.check, by simp [step, at_pc]⟩
  | sent pos => exact Or.inl ⟨.reply none, by simp [step, at_pc]⟩
  | opening pos body => exact Or.inl ⟨.opened true, by simp [step, at_pc]⟩
  | streaming segment => exact Or.inl ⟨.chunk 0, by simp [step, at_pc]⟩
  | storing segment written => exact Or.inl ⟨.store, by simp [step, at_pc]⟩
  | counting segment written => exact Or.inl ⟨.count, by simp [step, at_pc]⟩
  | waiting => exact Or.inl ⟨.slept, by simp [step, at_pc]⟩
  | writing segment bytes =>
      have used : worker.hasHandle = true := by simp [hasHandle, at_pc]
      cases io with
      | through => exact Or.inl ⟨.wrote, by simp [step, at_pc]⟩
      | background =>
          cases carried : worker.handle with
          | closed => exact absurd carried (opened used)
          | idle => exact Or.inl ⟨.wrote, by simp [step, at_pc, carried]⟩
          | failed => exact Or.inl ⟨.writeFailed 0, by simp [step, at_pc, carried]⟩
          | busy offset bytes => exact Or.inr ⟨offset, bytes, rfl⟩
  | flushing segment | finishing | cancelling =>
      refine (flushes (by simp [hasHandle, at_pc])).imp_left ?_
      rintro ⟨ok, reports⟩
      refine ⟨.flushed ok, ?_⟩
      cases ok <;> simp [step, at_pc, reports]

end Worker

end FastDownloader
