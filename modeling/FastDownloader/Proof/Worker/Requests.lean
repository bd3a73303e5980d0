/-
This file counts the range requests of one worker between the increases of its position.
-/

import FastDownloader.Foundation.Transition
import FastDownloader.Proof.Worker.Step

namespace FastDownloader

open Foundation

/-- The number of requests that may pass without an increase of `current`. -/
def DownloaderConfig.budget (cfg : DownloaderConfig) : Nat := max 1 cfg.maxRetries

/-- The counters are not in the source. They count the requests since the last increase of `current`, and all of them. -/
structure Tally where
  worker : Worker
  cancelled : Bool
  since : Nat
  total : Nat

/-- The runtime steps decide the background write of the handle. -/
inductive TallyEvent where
  | cancel
  | event (event : WorkerEvent)
  | land
  | lose

namespace Tally

def start (range : WorkerRange) : Tally := ⟨Worker.spawn range, false, 0, 0⟩

/-- A request is issued when the worker comes to wait for an answer. -/
def asked (worker next : Worker) : Nat := if worker.requested.isNone && next.requested.isSome then 1 else 0

def advance (tally : Tally) (next : Worker) : Tally :=
  { tally with
    worker := next
    since := if tally.worker.current < next.current then 0 else tally.since + asked tally.worker next
    total := tally.total + asked tally.worker next }

/-- This is one step of a worker on its own. -/
def step (io : FileIo) (cfg : DownloaderConfig) (ifRange : Option String) : Step Tally TallyEvent
  | tally, .cancel => some { tally with cancelled := true }
  | tally, .event event =>
      (tally.worker.step io cfg ifRange tally.cancelled event).map fun next => tally.advance next.1
  | tally, .land =>
      match tally.worker.handle with
      | .busy _ _ => some { tally with worker := { tally.worker with handle := .idle } }
      | _ => none
  | tally, .lose =>
      match tally.worker.handle with
      | .busy _ _ => some { tally with worker := { tally.worker with handle := .failed } }
      | _ => none

/-- A segment that ends without an error has moved `current` since its request. -/
def Advances (tally : Tally) (event : TallyEvent) : Bool :=
  match tally.worker.pc, event with
  | .finishing, .event (.flushed true) => tally.since = 0
  | _, _ => true

end Tally

/-- Each control point fixes how far the local position is ahead of `current`. -/
def Worker.Placed (worker : Worker) : Prop :=
  match worker.pc with
  | .sent pos | .opening pos _ => pos = worker.current ∧ pos < worker.stop
  | .streaming segment => segment.pos = worker.current ∧ segment.pos < worker.stop
  | .writing segment bytes =>
      segment.pos = worker.current ∧ bytes ≠ [] ∧ segment.pos + bytes.length ≤ worker.stop
  | .storing segment _ => worker.current < segment.pos ∧ segment.pos ≤ worker.stop
  | .counting segment _ | .flushing segment => segment.pos = worker.current ∧ segment.pos ≤ worker.stop
  | _ => True

/-- Each control point fixes how many requests the attempts account for. -/
def Worker.Paced (cfg : DownloaderConfig) (worker : Worker) (since : Nat) : Prop :=
  match worker.pc with
  | .skipped => since = 0
  | .head | .waiting => since ≤ worker.attempt ∧ worker.attempt < cfg.budget
  | .done _ => since ≤ cfg.budget
  | _ => since ≤ worker.attempt + 1 ∧ worker.attempt < cfg.budget

namespace Worker

variable {cfg : DownloaderConfig} {io : FileIo} {ifRange : Option String} {cancelled : Bool}
  {worker next : Worker} {event : WorkerEvent} {effect : Effect} {since : Nat}

theorem Paced.bound (paced : worker.Paced cfg since) : since ≤ cfg.budget := by
  unfold Paced at paced
  split at paced <;> omega

/-- An attempt that can still fail accounts for the last request. -/
theorem Paced.fallible (paced : worker.Paced cfg since) (fallible : worker.fallible = true) :
    since ≤ worker.attempt + 1 ∧ worker.attempt < cfg.budget := by
  unfold Worker.fallible at fallible
  unfold Paced at paced
  split at fallible <;> rename_i at_pc
  · simpa only [at_pc] using paced
  · simpa only [at_pc] using paced
  · simpa only [at_pc] using paced
  · simpa only [at_pc] using paced
  · simpa only [at_pc] using paced
  · simpa only [at_pc] using paced
  · cases fallible

@[simp] theorem release_fst (worker : Worker) : worker.release.1 = { worker with handle := .closed } := by
  unfold release
  split <;> rfl

/-- A failed attempt uses up one more attempt and asks nothing by itself. -/
theorem fail_paced (paced : since ≤ worker.attempt + 1 ∧ worker.attempt < cfg.budget) (error : Error) :
    (worker.fail cfg error).Paced cfg since := by
  unfold fail
  dsimp only
  split
  · change since ≤ cfg.budget
    omega
  · rename_i left
    change since ≤ worker.attempt + 1 ∧ worker.attempt + 1 < cfg.budget
    unfold DownloaderConfig.budget
    omega

theorem fail_placed (error : Error) : (worker.fail cfg error).Placed := by
  unfold fail
  dsimp only
  split <;> trivial

theorem fail_requested (error : Error) : (worker.fail cfg error).requested = none := by
  unfold fail
  dsimp only
  split <;> rfl

/-- These are the three ways in which one step moves the counters. -/
inductive Pace (cfg : DownloaderConfig) (since : Nat) (worker next : Worker) : Prop
  | rests (current : next.current = worker.current) (quiet : next.requested = none)
      (paced : next.Paced cfg since)
  | asks (current : next.current = worker.current) (silent : worker.requested = none)
      (loud : next.requested.isSome) (paced : next.Paced cfg (since + 1))
  | grows (more : worker.current < next.current) (within : next.current ≤ worker.stop)
      (quiet : next.requested = none) (paced : next.Paced cfg 0)

/-- A step keeps the end of the range and the places, and it moves the counters in one of the three ways. -/
structure PaceFacts (cfg : DownloaderConfig) (since : Nat) (worker next : Worker) : Prop where
  stop : next.stop = worker.stop
  placed : next.Placed
  pace : Pace cfg since worker next

theorem fail_pace (paced : since ≤ worker.attempt + 1 ∧ worker.attempt < cfg.budget) (error : Error) :
    PaceFacts cfg since worker (worker.fail cfg error) :=
  ⟨by simp, fail_placed error, .rests (by simp) (fail_requested error) (fail_paced paced error)⟩

/-- A closed handle changes no position and no counter. -/
theorem PaceFacts.release (facts : PaceFacts cfg since worker next) :
    PaceFacts cfg since worker next.release.1 := by
  rw [release_fst]
  obtain ⟨stop, placed, pace⟩ := facts
  refine ⟨stop, placed, ?_⟩
  cases pace with
  | rests current quiet paced => exact .rests current quiet paced
  | asks current silent loud paced => exact .asks current silent loud paced
  | grows more within quiet paced => exact .grows more within quiet paced

theorem onHead_pace (at_pc : worker.pc = .head) (paced : worker.Paced cfg since) (cancelled : Bool) :
    PaceFacts cfg since worker (worker.onHead cancelled) := by
  have bound := paced.bound
  simp only [Paced, at_pc] at paced
  unfold onHead
  split_ifs with more stopped
  · exact ⟨rfl, trivial, .rests rfl rfl bound⟩
  · exact ⟨rfl, ⟨rfl, more⟩, .asks rfl (by simp [requested, at_pc]) rfl ⟨Nat.succ_le_succ paced.1, paced.2⟩⟩
  · exact ⟨rfl, trivial, .rests rfl rfl bound⟩

theorem onReply_pace {pos : Nat} (at_pc : worker.pc = .sent pos) (placed : worker.Placed)
    (paced : worker.Paced cfg since) (response : Response) :
    PaceFacts cfg since worker (worker.onReply cfg ifRange pos response) := by
  have bound := paced.bound
  simp only [Paced, at_pc] at paced
  simp only [Placed, at_pc] at placed
  unfold onReply
  split_ifs
  · exact ⟨rfl, placed, .rests rfl rfl paced⟩
  · exact ⟨rfl, trivial, .rests rfl rfl bound⟩
  · exact ⟨rfl, trivial, .rests rfl rfl bound⟩
  · -- An answer 416 moves `current` to the end of the range.
    refine ⟨rfl, trivial, .grows (placed.1 ▸ placed.2) (Nat.le_refl _) rfl ⟨Nat.le_refl _, ?_⟩⟩
    exact Nat.lt_of_lt_of_le Nat.one_pos (Nat.le_max_left _ _)
  · exact fail_pace paced _

theorem onChunk_pace {segment : Segment} (at_pc : worker.pc = .streaming segment) (placed : worker.Placed)
    (paced : worker.Paced cfg since) (size : Nat) :
    PaceFacts cfg since worker (worker.onChunk cancelled segment size) := by
  simp only [Paced, at_pc] at paced
  simp only [Placed, at_pc] at placed
  unfold onChunk
  dsimp only
  split_ifs with stopped empty full
  · exact ⟨rfl, trivial, .rests rfl rfl paced⟩
  · exact ⟨rfl, placed, .rests rfl rfl paced⟩
  · exact ⟨rfl, trivial, .rests rfl rfl paced⟩
  · refine ⟨rfl, ⟨placed.1, ?_, ?_⟩, .rests rfl rfl paced⟩
    · refine List.ne_nil_of_length_pos ?_
      rw [List.length_take]
      omega
    · rw [List.length_take]
      unfold writeLen at full ⊢
      split_ifs at full ⊢ <;> dsimp only <;> omega

/-- The position that is stored next lies behind `current`. -/
theorem onWrote_pace {segment : Segment} {bytes : List UInt8} (at_pc : worker.pc = .writing segment bytes)
    (placed : worker.Placed) (paced : worker.Paced cfg since) (handle : Handle) :
    PaceFacts cfg since worker { worker.onWrote segment bytes with handle := handle } := by
  simp only [Paced, at_pc] at paced
  simp only [Placed, at_pc] at placed
  obtain ⟨here, nonempty, within⟩ := placed
  have positive := List.length_pos_iff.mpr nonempty
  refine ⟨rfl, ⟨?_, within⟩, .rests rfl rfl paced⟩
  change worker.current < segment.pos + bytes.length
  omega

theorem store_pace {segment : Segment} {written : Nat} (at_pc : worker.pc = .storing segment written)
    (placed : worker.Placed) (paced : worker.Paced cfg since) :
    PaceFacts cfg since worker { worker with current := segment.pos, pc := .counting segment written } := by
  simp only [Paced, at_pc] at paced
  simp only [Placed, at_pc] at placed
  exact ⟨rfl, ⟨rfl, placed.2⟩, .grows placed.1 placed.2 rfl ⟨Nat.zero_le _, paced.2⟩⟩

theorem afterFlush_pace {segment : Segment} (here : segment.pos = worker.current)
    (paced : since ≤ worker.attempt + 1 ∧ worker.attempt < cfg.budget) :
    PaceFacts cfg since worker (worker.afterFlush segment) := by
  unfold afterFlush
  split_ifs with ended
  · exact ⟨rfl, trivial, .rests rfl rfl paced⟩
  · exact ⟨rfl, ⟨here, Nat.lt_of_not_le ended⟩, .rests rfl rfl paced⟩

theorem onCount_pace {segment : Segment} {written : Nat} (at_pc : worker.pc = .counting segment written)
    (placed : worker.Placed) (paced : worker.Paced cfg since) :
    PaceFacts cfg since worker (worker.onCount cfg segment) := by
  simp only [Paced, at_pc] at paced
  simp only [Placed, at_pc] at placed
  unfold onCount
  split_ifs
  · exact ⟨rfl, placed, .rests rfl rfl paced⟩
  · exact afterFlush_pace placed.1 paced

/-- One step of a worker moves the counters in one of the three ways. Only a segment that ends without an error gives
the attempts back, so it has to have moved `current`. -/
theorem step_pace (placed : worker.Placed) (paced : worker.Paced cfg since)
    (advances : worker.pc = .finishing → event = .flushed true → since = 0)
    (taken : worker.step io cfg ifRange cancelled event = some (next, effect)) :
    PaceFacts cfg since worker next := by
  have bound := paced.bound
  cases step_move taken with
  | checked at_pc => exact onHead_pace at_pc paced cancelled
  | answered pos response at_pc => exact onReply_pace at_pc placed paced response
  | opened pos body at_pc =>
      simp only [Paced, Placed, at_pc] at paced placed
      exact ⟨rfl, placed, .rests rfl rfl paced⟩
  | chunk segment size at_pc => exact onChunk_pace at_pc placed paced size
  | ended segment at_pc | stopped segment at_pc =>
      simp only [Paced, at_pc] at paced
      exact ⟨rfl, trivial, .rests rfl rfl paced⟩
  | wrote segment bytes mode at_pc => exact onWrote_pace at_pc placed paced worker.handle
  | passed segment bytes mode idle at_pc => exact onWrote_pace at_pc placed paced _
  | torn segment bytes kept mode at_pc => exact (fail_pace (paced.fallible (by simp [fallible, at_pc])) .io).release
  | stored segment written at_pc => exact store_pace at_pc placed paced
  | counted segment written at_pc => exact onCount_pace at_pc placed paced
  | flushed segment at_pc =>
      simp only [Paced, Placed, at_pc] at paced placed
      exact afterFlush_pace placed.1 paced
  | finished at_pc =>
      simp only [Paced, at_pc] at paced
      obtain rfl := advances at_pc rfl
      have ended : PaceFacts cfg 0 worker { worker with attempt := 0, pc := .head } :=
        ⟨rfl, trivial, .rests rfl rfl ⟨Nat.le_refl _, Nat.lt_of_lt_of_le Nat.one_pos (Nat.le_max_left _ _)⟩⟩
      exact ended.release
  | gaveUp ok at_pc =>
      have ended : PaceFacts cfg since worker { worker with pc := .done (.error .cancelled) } :=
        ⟨rfl, trivial, .rests rfl rfl bound⟩
      exact ended.release
  | refused _ error _ fallible => exact fail_pace (paced.fallible fallible) error
  | broken _ error _ fallible => exact (fail_pace (paced.fallible fallible) error).release
  | slept at_pc =>
      simp only [Paced, at_pc] at paced
      exact ⟨rfl, trivial, .rests rfl rfl paced⟩
  | interrupted at_pc => exact ⟨rfl, trivial, .rests rfl rfl bound⟩

end Worker

namespace Tally

variable {cfg : DownloaderConfig} {io : FileIo} {ifRange : Option String} {range : WorkerRange}
  {tally next : Tally} {event : TallyEvent}

/-- All requests are paid by increases of `current`, except those since the last one. -/
structure Spent (cfg : DownloaderConfig) (range : WorkerRange) (tally : Tally) : Prop where
  stop : tally.worker.stop = range.stop
  above : range.current ≤ tally.worker.current
  below : tally.worker.current ≤ max range.stop range.current
  placed : tally.worker.Placed
  paced : tally.worker.Paced cfg tally.since
  paid : tally.total ≤ (tally.worker.current - range.current) * cfg.budget + tally.since

theorem start_spent (cfg : DownloaderConfig) (range : WorkerRange) : Spent cfg range (start range) where
  stop := rfl
  above := Nat.le_refl _
  below := Nat.le_max_right _ _
  placed := by
    unfold Worker.Placed start Worker.spawn
    split_ifs <;> trivial
  paced := by
    unfold Worker.Paced start Worker.spawn
    split_ifs
    · rfl
    · exact ⟨Nat.le_refl _, Nat.lt_of_lt_of_le Nat.one_pos (Nat.le_max_left _ _)⟩
  paid := Nat.zero_le _

/-- A worker step that moves the counters in one of the three ways keeps the account. -/
theorem Spent.advance {worker : Worker} (spent : Spent cfg range tally)
    (facts : Worker.PaceFacts cfg tally.since tally.worker worker) : Spent cfg range (tally.advance worker) := by
  obtain ⟨stop, above, below, -, paced, paid⟩ := spent
  have bound := paced.bound
  obtain ⟨kept, placed, pace⟩ := facts
  cases pace with
  | rests current quiet paced =>
      have silent : asked tally.worker worker = 0 := by simp [asked, quiet]
      refine ⟨kept.trans stop, ?_, ?_, placed, ?_, ?_⟩ <;>
        simp only [Tally.advance, current, silent, Nat.lt_irrefl, if_false, Nat.add_zero] <;> assumption
  | asks current silent loud paced =>
      have asking : asked tally.worker worker = 1 := by simp [asked, silent, loud]
      refine ⟨kept.trans stop, ?_, ?_, placed, ?_, ?_⟩ <;>
        simp only [Tally.advance, current, asking, Nat.lt_irrefl, if_false]
      · exact above
      · exact below
      · exact paced
      · omega
  | grows more within quiet paced =>
      have silent : asked tally.worker worker = 0 := by simp [asked, quiet]
      refine ⟨kept.trans stop, ?_, ?_, placed, ?_, ?_⟩ <;>
        simp only [Tally.advance, silent, more, if_true, Nat.add_zero]
      · omega
      · rw [stop] at within
        exact Nat.le_trans within (Nat.le_max_left _ _)
      · exact paced
      · -- The new bytes pay for the requests since the last increase.
        have wider : (tally.worker.current - range.current) + 1 ≤ worker.current - range.current := by omega
        have paying := Nat.mul_le_mul_right cfg.budget wider
        rw [Nat.add_mul, Nat.one_mul] at paying
        omega

/-- A background write that ends changes only the handle. -/
theorem Spent.handle (spent : Spent cfg range tally) (handle : Handle) :
    Spent cfg range { tally with worker := { tally.worker with handle := handle } } :=
  ⟨spent.stop, spent.above, spent.below, spent.placed, spent.paced, spent.paid⟩

theorem Spent.step (spent : Spent cfg range tally) (advances : Advances tally event = true)
    (taken : Tally.step io cfg ifRange tally event = some next) : Spent cfg range next := by
  cases event with
  | cancel =>
      obtain rfl := Option.some.inj taken
      exact ⟨spent.stop, spent.above, spent.below, spent.placed, spent.paced, spent.paid⟩
  | event event =>
      obtain ⟨⟨worker, effect⟩, stepped, rfl⟩ := Option.map_eq_some_iff.mp taken
      refine spent.advance (Worker.step_pace spent.placed spent.paced ?_ stepped)
      rintro at_pc rfl
      simpa [Advances, at_pc] using advances
  | land | lose =>
      simp only [Tally.step] at taken
      split at taken
      · obtain rfl := Option.some.inj taken
        exact spent.handle _
      · cases taken

/-- A worker whose successful segments all move `current` cannot spin: it issues at most `max_retries` requests
between two increases, and so the number of its requests is bounded by the length of its range. -/
theorem requests_bounded {events : List TallyEvent} {last : Tally}
    (run : Run (Tally.step io cfg ifRange) (fun tally event => Advances tally event = true) (start range) events last) :
    last.since ≤ max 1 cfg.maxRetries ∧
      last.total ≤ (range.stop - range.current + 1) * max 1 cfg.maxRetries := by
  have spent := run.invariant (Spent cfg range) (fun _ _ _ spent advances taken => spent.step advances taken)
    (start_spent cfg range)
  have bound : last.since ≤ cfg.budget := spent.paced.bound
  refine ⟨bound, ?_⟩
  have above := spent.above
  have below := spent.below
  have length : last.worker.current - range.current ≤ range.stop - range.current := by omega
  calc last.total
      ≤ (last.worker.current - range.current) * cfg.budget + last.since := spent.paid
    _ ≤ (range.stop - range.current) * cfg.budget + cfg.budget :=
        Nat.add_le_add (Nat.mul_le_mul_right _ length) bound
    _ = (range.stop - range.current + 1) * max 1 cfg.maxRetries := by rw [Nat.add_mul, Nat.one_mul]; rfl

/-- One request of the first byte breaks, and the next one brings the byte. -/
def repeated : List TallyEvent :=
  [.event .check, .event (.reply none), .event .slept, .event .check,
    .event (.reply (some ⟨206, none, none, [7]⟩)), .event (.opened true), .event (.chunk 1), .event .wrote,
    .event .store, .event .count, .event (.flushed true), .event .check]

def repeatedRun : Option Tally := replay (Tally.step .through {} none) (start ⟨0, 0, 1⟩) repeated

theorem requests_bounded_repeated : (repeatedRun.get rfl).since ≤ 8 ∧ (repeatedRun.get rfl).total ≤ 2 * 8 := by
  have run : Run (Tally.step .through {} none) (fun tally event => Advances tally event = true)
      (start ⟨0, 0, 1⟩) repeated (repeatedRun.get rfl) :=
    run_of_replay (by decide +kernel) (Option.some_get _).symm
  exact requests_bounded run

/-- A worker that waits for its only byte has received this many empty parts. -/
def spinning (count : Nat) : Tally := ⟨Worker.spawn ⟨0, 0, 1⟩, false, count, count⟩

/-- The server sends one more empty part and closes the stream. The worker takes it for success. -/
theorem spinning_next (count : Nat) :
    Reaches (Tally.step .through {} none) (fun _ _ => True) (spinning count) (spinning (count + 1)) :=
  ⟨[.event .check, .event (.reply (some ⟨206, none, none, []⟩)), .event (.opened true), .event .streamEnd,
    .event (.flushed true)],
    .cons trivial rfl (.cons trivial rfl (.cons trivial rfl (.cons trivial rfl (.cons trivial rfl (.nil _)))))⟩

theorem spinning_reached (count : Nat) :
    Reaches (Tally.step .through {} none) (fun _ _ => True) (start ⟨0, 0, 1⟩) (spinning count) := by
  induction count with
  | zero => exact .refl _
  | succ count ih => exact ih.trans (spinning_next count)

/-- Empty parts keep the worker busy for ever: neither count has a bound. -/
theorem requests_unbounded :
    ¬ (∀ events last, Run (Tally.step .through {} none) (fun _ _ => True) (start ⟨0, 0, 1⟩) events last →
        last.since ≤ max 1 ({} : DownloaderConfig).maxRetries) ∧
      ¬ ∃ bound, ∀ events last, Run (Tally.step .through {} none) (fun _ _ => True) (start ⟨0, 0, 1⟩) events last →
        last.total ≤ bound := by
  constructor
  · intro bounded
    obtain ⟨events, run⟩ := spinning_reached 9
    exact absurd (bounded events _ run) (by decide)
  · rintro ⟨bound, bounded⟩
    obtain ⟨events, run⟩ := spinning_reached (bound + 1)
    exact absurd (bounded events _ run) (Nat.not_succ_le_self bound)

end Tally

end FastDownloader
