/-
This file shows that a worker which is refused or cut off at any time asks again, and how often it does.
-/

import FastDownloader.Proof.Worker.Healthy
import FastDownloader.Proof.Worker.Requests

namespace FastDownloader

/-- These events end an attempt of a worker and let it ask again. -/
def WorkerEvent.failed : WorkerEvent → Bool
  | .reply (some response) => response.status ≠ 206 && response.status ≠ 200 && response.status ≠ 416
  | event => event.fault

namespace Worker

/-- The server sends exactly the asked range or some failure, and anything else may fail too. -/
def Retriable (content : List UInt8) (worker : Worker) : WorkerEvent → Prop
  | .reply (some response) => WorkerEvent.failed (.reply (some response)) = true ∨ ∀ pos ∈ worker.requested,
      response.status = 206 ∧ response.body = (content.drop pos).take (worker.stop - pos)
  | .chunk size => size ≤ worker.unread
  | _ => True

/-- The worker has used up its attempts. -/
def Exhausted (cfg : DownloaderConfig) (worker : Worker) : Prop :=
  ∃ source, worker.pc = .done (.error (.retryExhausted cfg.budget source))

/-- The worker still has a part of its range to ask for. -/
def live (worker : Worker) : Bool :=
  match worker.pc with
  | .skipped | .done _ => false
  | .head => worker.current < worker.stop
  | _ => true

/-- A worker works, waits for its next attempt, or has used up its attempts. -/
inductive Trying (cfg : DownloaderConfig) (worker : Worker) : Prop
  | working (healthy : worker.Healthy) (left : worker.live = true → worker.attempt < cfg.budget)
  | waiting (at_pc : worker.pc = .waiting) (intact : worker.handle ≠ .failed) (left : worker.attempt < cfg.budget)
  | exhausted (given : worker.Exhausted cfg)

/-- Each attempt that is left can take the worker through its whole range. -/
def reserve (cfg : DownloaderConfig) (worker : Worker) : Nat :=
  if worker.live then (cfg.budget - worker.attempt) * (8 * (worker.stop - worker.start) + 64) else 0

/-- A wait goes before the next request. -/
def pace (worker : Worker) : Nat :=
  match worker.pc with
  | .waiting => 8 * (worker.stop - worker.current) + 62
  | _ => worker.rank

def toil (cfg : DownloaderConfig) (worker : Worker) : Nat := worker.reserve cfg + worker.pace

/-- The attempts of a worker agree with the number of its failures. -/
structure Met (cfg : DownloaderConfig) (failures : Nat) (worker : Worker) : Prop where
  attempt : worker.live = true → worker.attempt = failures
  bounded : failures ≤ cfg.budget
  exhausted : worker.Exhausted cfg ↔ failures = cfg.budget

variable {content : List UInt8} {right : Nat → UInt8 → Prop} {io : FileIo} {cfg : DownloaderConfig}
  {ifRange : Option String} {worker next : Worker} {event : WorkerEvent} {effect : Effect}

/-- What a step does to a worker that tries. -/
structure Tries (cfg : DownloaderConfig) (worker : Worker) (event : WorkerEvent) (next : Worker) : Prop where
  trying : next.Trying cfg
  falls : next.toil cfg < worker.toil cfg ∨ (event = .chunk 0 ∧ next.toil cfg ≤ worker.toil cfg)
  counted : ∀ failures, worker.Met cfg failures → next.Met cfg (failures + event.failed.toNat)

theorem Healthy.not_waiting (healthy : worker.Healthy) : worker.pc ≠ .waiting := by
  intro at_pc
  have fed := healthy.fed
  simp only [Fed, at_pc] at fed

theorem Healthy.not_exhausted (healthy : worker.Healthy) : ¬ worker.Exhausted cfg := by
  rintro ⟨source, at_pc⟩
  have fed := healthy.fed
  simp only [Fed, at_pc] at fed

theorem Healthy.pace_eq (healthy : worker.Healthy) : worker.pace = worker.rank := by
  unfold pace
  split
  next at_pc => exact absurd at_pc healthy.not_waiting
  next => rfl

theorem live_of_fallible (fallible : worker.fallible = true) : worker.live = true := by
  unfold Worker.fallible at fallible
  split at fallible <;> rename_i at_pc
  all_goals first | exact absurd fallible Bool.false_ne_true | simp [live, at_pc]

/-- A step that is no failure of a healthy worker meets no fault. -/
theorem faultless_of_retriable (healthy : worker.Healthy) (retriable : worker.Retriable content event)
    (fine : event.failed = false)
    (taken : worker.step io cfg ifRange false event = some (next, effect)) : worker.Faultless content event := by
  cases event with
  | reply answer =>
      cases answer with
      | none => cases fine
      | some response => exact retriable.resolve_left fun failed => by rw [fine] at failed; cases failed
  | opened ok | flushed ok =>
      cases ok with
      | false => cases fine
      | true => rfl
  | streamError | writeFailed => cases fine
  | chunk => exact retriable
  | check | streamEnd | wrote | store | count => trivial
  | slept | interrupted =>
      cases at_pc : worker.pc with
      | waiting => exact absurd at_pc healthy.not_waiting
      | _ => simp [step, at_pc] at taken

/-- Without a fault the attempts stay, unless nothing is left to ask for. -/
theorem step_attempt (healthy : worker.Healthy) (faultless : worker.Faultless content event)
    (taken : worker.step io cfg ifRange false event = some (next, effect)) (going : next.live = true) :
    worker.live = true ∧ next.attempt = worker.attempt ∧ next.start = worker.start ∧ next.stop = worker.stop := by
  have fed := healthy.fed
  cases step_move taken with
  | torn | stopped | slept | interrupted => cases faultless
  | refused _ error fault | broken _ error fault => exact absurd fault faultless.no_fault
  | checked at_pc =>
      unfold onHead at going ⊢
      rw [if_neg Bool.false_ne_true] at going ⊢
      split_ifs at going ⊢ with more
      · exact ⟨by simpa [live, at_pc] using more, rfl, rfl, rfl⟩
      · cases going
  | answered pos response at_pc =>
      obtain ⟨status, -⟩ := faultless pos (by simp [requested, at_pc])
      unfold onReply
      rw [if_pos status]
      exact ⟨by simp [live, at_pc], rfl, rfl, rfl⟩
  | chunk segment size at_pc =>
      refine ⟨by simp [live, at_pc], ?_⟩
      unfold onChunk
      dsimp only
      split_ifs <;> exact ⟨rfl, rfl, rfl⟩
  | counted segment written at_pc =>
      refine ⟨by simp [live, at_pc], ?_⟩
      unfold onCount afterFlush
      split_ifs <;> exact ⟨rfl, rfl, rfl⟩
  | flushed segment at_pc =>
      refine ⟨by simp [live, at_pc], ?_⟩
      unfold afterFlush
      split_ifs <;> exact ⟨rfl, rfl, rfl⟩
  | finished at_pc =>
      simp only [Fed, at_pc] at fed
      rw [release_fst] at going
      simp [live, fed] at going
  | gaveUp ok at_pc => simp only [Fed, at_pc] at fed
  | opened pos body at_pc => exact ⟨by simp [live, at_pc], rfl, rfl, rfl⟩
  | ended segment at_pc => exact ⟨by simp [live, at_pc], rfl, rfl, rfl⟩
  | wrote segment bytes mode at_pc => exact ⟨by simp [live, at_pc], rfl, rfl, rfl⟩
  | passed segment bytes mode idle at_pc => exact ⟨by simp [live, at_pc], rfl, rfl, rfl⟩
  | stored segment written at_pc => exact ⟨by simp [live, at_pc], rfl, rfl, rfl⟩

/-- A failure ends the attempt of a healthy worker, whatever has failed. -/
theorem fail_of_failed (healthy : worker.Healthy) (failed : event.failed = true)
    (taken : worker.step io cfg ifRange false event = some (next, effect)) :
    worker.fallible = true ∧ ∃ error handle, handle ≠ .failed ∧ next = { worker.fail cfg error with handle := handle } := by
  have fed := healthy.fed
  cases step_move taken with
  | checked | opened | chunk | ended | wrote | passed | stored | counted | flushed | finished | slept | interrupted =>
      cases failed
  | stopped segment at_pc =>
      simp only [step, at_pc, Bool.false_eq_true, if_false, Option.some.injEq] at taken
      exact ⟨by simp [Worker.fallible, at_pc], .http, .closed, by rintro ⟨⟩,
        (congrArg Prod.fst taken).symm.trans (release_fst _)⟩
  | gaveUp ok at_pc => simp only [Fed, at_pc] at fed
  | answered pos response at_pc =>
      simp only [WorkerEvent.failed, Bool.and_eq_true, decide_eq_true_eq] at failed
      obtain ⟨⟨partialContent, complete⟩, unsatisfiable⟩ := failed
      refine ⟨by simp [Worker.fallible, at_pc], .status response.status, worker.handle, healthy.intact, ?_⟩
      unfold onReply
      rw [if_neg partialContent, if_neg complete, if_neg unsatisfiable]
      unfold fail
      dsimp only
      split_ifs <;> rfl
  | refused _ error fault fallible =>
      refine ⟨fallible, error, worker.handle, healthy.intact, ?_⟩
      unfold fail
      dsimp only
      split_ifs <;> rfl
  | broken _ error fault fallible => exact ⟨fallible, error, .closed, by rintro ⟨⟩, release_fst _⟩
  | torn segment bytes kept mode at_pc =>
      exact ⟨by simp [Worker.fallible, at_pc], .io, .closed, by rintro ⟨⟩, release_fst _⟩

/-- A step without a failure brings a healthy worker nearer to its end. -/
theorem step_tries_fine (sound : worker.Sound right) (healthy : worker.Healthy)
    (left : worker.live = true → worker.attempt < cfg.budget)
    (still : io = .through → worker.handle.flight = none) (inside : worker.stop ≤ content.length)
    (faultless : worker.Faultless content event) (fine : event.failed = false)
    (taken : worker.step io cfg ifRange false event = some (next, effect)) : Tries cfg worker event next := by
  obtain ⟨after, -, falls⟩ := step_advances sound healthy still inside faultless taken
  have kept := step_attempt healthy faultless taken
  have reserve : next.reserve cfg ≤ worker.reserve cfg := by
    unfold Worker.reserve
    split_ifs with going before
    · obtain ⟨-, attempt, start, stop⟩ := kept going
      rw [attempt, start, stop]
    · exact absurd (kept going).1 before
    · exact Nat.zero_le _
    · exact Nat.le_refl _
  refine ⟨.working after fun going => ?_, ?_, fun failures met => ?_⟩
  · obtain ⟨before, attempt, -, -⟩ := kept going
    exact attempt ▸ left before
  · unfold toil
    rw [healthy.pace_eq, after.pace_eq]
    rcases falls with lower | ⟨empty, level⟩
    · exact Or.inl (by omega)
    · exact Or.inr ⟨empty, by omega⟩
  · rw [fine, Bool.toNat_false, Nat.add_zero]
    have fewer : failures ≠ cfg.budget := fun same => healthy.not_exhausted (met.exhausted.mpr same)
    refine ⟨fun going => ?_, met.bounded, ?_⟩
    · obtain ⟨before, attempt, -, -⟩ := kept going
      rw [attempt, met.attempt before]
    · exact iff_of_false after.not_exhausted fewer

/-- A failure uses up one attempt, and the last one ends the worker. -/
theorem fail_tries (sound : worker.Sound right) (fallible : worker.fallible = true)
    (left : worker.attempt < cfg.budget) (failed : event.failed = true) (error : Error) {handle : Handle}
    (intact : handle ≠ .failed) : Tries cfg worker event { worker.fail cfg error with handle := handle } := by
  have before := live_of_fallible fallible
  have begun := sound.start_le
  have reserve : worker.reserve cfg = (cfg.budget - worker.attempt) * (8 * (worker.stop - worker.start) + 64) :=
    if_pos before
  have enough : 8 * (worker.stop - worker.start) + 64 ≤ worker.reserve cfg := by
    rw [reserve]
    exact Nat.le_mul_of_pos_left _ (by omega)
  by_cases last : worker.attempt + 1 ≥ cfg.maxRetries
  · have all : worker.attempt + 1 = cfg.budget := by
      unfold DownloaderConfig.budget at left ⊢
      omega
    have same : ({ worker.fail cfg error with handle := handle } : Worker) =
        { worker with
          attempt := worker.attempt + 1
          pc := .done (.error (.retryExhausted (worker.attempt + 1) error))
          handle := handle } := by
      unfold fail
      dsimp only
      rw [if_pos last]
    rw [same]
    have ended : ({ worker with
        attempt := worker.attempt + 1
        pc := .done (.error (.retryExhausted (worker.attempt + 1) error))
        handle := handle } : Worker).Exhausted cfg := ⟨error, by rw [← all]⟩
    refine ⟨.exhausted ended, Or.inl ?_, fun failures met => ⟨by rintro ⟨⟩, ?_, iff_of_true ended ?_⟩⟩
    · have light : handle.flights ≤ 1 := by
        unfold Handle.flights
        split_ifs <;> omega
      have lower : ({ worker with
          attempt := worker.attempt + 1
          pc := .done (.error (.retryExhausted (worker.attempt + 1) error))
          handle := handle } : Worker).toil cfg = handle.flights := Nat.zero_add _
      rw [lower]
      exact Nat.lt_of_lt_of_le (by omega) (Nat.le_add_right (worker.reserve cfg) _)
    · rw [failed, Bool.toNat_true, ← met.attempt before]
      omega
    · rw [failed, Bool.toNat_true, ← met.attempt before, all]
  · have same : ({ worker.fail cfg error with handle := handle } : Worker) =
        { worker with attempt := worker.attempt + 1, pc := .waiting, handle := handle } := by
      unfold fail
      dsimp only
      rw [if_neg last]
    rw [same]
    have more : worker.attempt + 1 < cfg.budget := by
      unfold DownloaderConfig.budget
      omega
    refine ⟨.waiting rfl intact more, Or.inl ?_, fun failures met => ?_⟩
    · -- One attempt pays for the wait and for the whole range.
      obtain ⟨spare, split⟩ : ∃ spare, cfg.budget - worker.attempt = spare + 1 := ⟨cfg.budget - worker.attempt - 1, by omega⟩
      have rest : cfg.budget - (worker.attempt + 1) = spare := by omega
      rw [split, Nat.succ_mul] at reserve
      have lower : ({ worker with attempt := worker.attempt + 1, pc := .waiting, handle := handle } : Worker).toil cfg =
          (cfg.budget - (worker.attempt + 1)) * (8 * (worker.stop - worker.start) + 64) +
            (8 * (worker.stop - worker.current) + 62) := rfl
      rw [lower, rest]
      refine Nat.lt_of_lt_of_le ?_ (Nat.le_add_right (worker.reserve cfg) _)
      omega
    · rw [failed, Bool.toNat_true, ← met.attempt before]
      exact ⟨fun _ => rfl, Nat.le_of_lt more, iff_of_false (by rintro ⟨source, ⟨⟩⟩) (Nat.ne_of_lt more)⟩

/-- The end of a wait begins the next attempt. -/
theorem slept_tries (sound : worker.Sound right) (at_pc : worker.pc = .waiting) (intact : worker.handle ≠ .failed)
    (left : worker.attempt < cfg.budget) : Tries cfg worker .slept { worker with pc := .head } := by
  have aligned := sound.aligned
  simp only [Aligned, at_pc] at aligned
  have before : worker.live = true := by simp [live, at_pc]
  have healthy : ({ worker with pc := .head } : Worker).Healthy := ⟨aligned, intact, by rintro ⟨⟩⟩
  refine ⟨.working healthy fun _ => left, Or.inl ?_, fun failures met => ?_⟩
  · have reserve : ({ worker with pc := .head } : Worker).reserve cfg ≤ worker.reserve cfg := by
      unfold Worker.reserve
      rw [if_pos before]
      split_ifs
      · exact Nat.le_refl _
      · exact Nat.zero_le _
    have light : worker.handle.flights ≤ 1 := by
      unfold Handle.flights
      split_ifs <;> omega
    have pace : ({ worker with pc := .head } : Worker).pace < worker.pace := by
      simp only [Worker.pace, at_pc, rank]
      split_ifs <;> omega
    unfold toil
    omega
  · have attempt := met.attempt before
    refine ⟨fun _ => attempt, met.bounded, iff_of_false (by rintro ⟨source, ⟨⟩⟩) ?_⟩
    change failures ≠ cfg.budget
    omega

/-- Each step of a worker that tries counts its failures and brings it nearer to its end. -/
theorem step_tries (sound : worker.Sound right) (trying : worker.Trying cfg)
    (still : io = .through → worker.handle.flight = none) (inside : worker.stop ≤ content.length)
    (retriable : worker.Retriable content event)
    (taken : worker.step io cfg ifRange false event = some (next, effect)) : Tries cfg worker event next := by
  cases trying with
  | working healthy left =>
      cases failed : event.failed with
      | false =>
          have faultless := faultless_of_retriable healthy retriable failed taken
          exact step_tries_fine sound healthy left still inside faultless failed taken
      | true =>
          obtain ⟨fallible, error, handle, intact, rfl⟩ := fail_of_failed healthy failed taken
          exact fail_tries sound fallible (left (live_of_fallible fallible)) failed error intact
  | waiting at_pc intact left =>
      cases event with
      | slept =>
          simp only [step, at_pc, Option.some.injEq, Prod.mk.injEq] at taken
          obtain ⟨rfl, rfl⟩ := taken
          exact slept_tries sound at_pc intact left
      | _ => simp [step, at_pc] at taken
  | exhausted given =>
      obtain ⟨source, at_pc⟩ := given
      simp [step, at_pc] at taken

/-- A worker that tries can go on as long as it has not ended, unless its background write has to land first. -/
theorem Trying.moves (trying : worker.Trying cfg) (pending : worker.finished = false)
    (landed : worker.handle.flight = none) :
    ∃ event, worker.Retriable content event ∧ event ≠ .chunk 0 ∧
      (worker.step io cfg ifRange false event).isSome = true := by
  cases trying with
  | working healthy left =>
      obtain ⟨event, faultless, busy, enabled⟩ : ∃ event, worker.Faultless content event ∧ event ≠ .chunk 0 ∧
          (worker.step io cfg ifRange false event).isSome = true := healthy.moves pending landed
      refine ⟨event, ?_, busy, enabled⟩
      cases event with
      | reply answer =>
          cases answer with
          | none => trivial
          | some response => exact Or.inr faultless
      | chunk => exact faultless
      | _ => trivial
  | waiting at_pc => exact ⟨.slept, trivial, by rintro ⟨⟩, by simp [step, at_pc]⟩
  | exhausted given =>
      obtain ⟨source, at_pc⟩ := given
      simp [finished, at_pc] at pending

theorem spawn_trying (cfg : DownloaderConfig) (range : WorkerRange) : (spawn range).Trying cfg :=
  .working (spawn_healthy range) fun _ => Nat.le_max_left 1 _

theorem spawn_met (cfg : DownloaderConfig) (range : WorkerRange) : (spawn range).Met cfg 0 := by
  have positive : 0 < cfg.budget := Nat.le_max_left 1 _
  exact ⟨fun _ => rfl, Nat.zero_le _, iff_of_false (spawn_healthy range).not_exhausted (Nat.ne_of_lt positive)⟩

/-- A worker that tries and has ended has its range, or has used up its attempts. -/
theorem Trying.ended (trying : worker.Trying cfg) (sound : worker.Sound right) (finished : worker.finished = true) :
    ((worker.pc = .skipped ∨ worker.pc = .done (.ok ())) ∧ worker.handed = worker.stop) ∨ worker.Exhausted cfg := by
  cases trying with
  | working healthy => exact Or.inl (healthy.ended sound finished)
  | waiting at_pc => simp [Worker.finished, at_pc] at finished
  | exhausted given => exact Or.inr given

end Worker

end FastDownloader
