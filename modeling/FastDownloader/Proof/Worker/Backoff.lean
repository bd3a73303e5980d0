/-
This file shows when the delay between two attempts is the exact doubling of the first one under the cap.
A worker meets these delays in its order of attempts.
-/

import FastDownloader.Foundation.Doubling
import FastDownloader.Model.Backoff
import FastDownloader.Proof.Worker.Requests

namespace FastDownloader

open Foundation

namespace Duration

variable {left right : Duration}

theorem asNanos_inj : left.asNanos = right.asNanos ↔ left = right := by
  refine ⟨?_, congrArg asNanos⟩
  intro same
  obtain ⟨leftSecs, leftNanos, leftInside⟩ := left
  obtain ⟨rightSecs, rightNanos, rightInside⟩ := right
  simp only [asNanos] at same
  have secs : leftSecs = rightSecs := by
    apply UInt64.toNat_inj.mp
    omega
  subst secs
  congr 1
  omega

theorem asNanos_fromNanos (nanos : UInt64) : (fromNanos nanos).asNanos = nanos.toNat := by
  rw [asNanos, fromNanos, UInt64.toNat_div]
  exact Nat.div_add_mod' nanos.toNat 1000000000

theorem asNanos_lt (duration : Duration) : duration.asNanos < 2 ^ 94 := by
  have secs := duration.secs.toNat_lt
  have nanos := duration.inside
  unfold asNanos
  omega

end Duration

theorem checkedShl_one {shift : Nat} (inside : shift < 64) : checkedShl 1 shift = some (2 ^ shift) := by
  have fits : 2 ^ shift < 2 ^ 64 := Nat.pow_lt_pow_right Nat.one_lt_two inside
  rw [checkedShl, if_pos inside, Nat.one_mul, Nat.mod_eq_of_lt fits]

theorem saturatingMul_of_lt {left right : Nat} (fits : left * right < 2 ^ 128) :
    saturatingMul left right = left * right := Nat.min_eq_left (Nat.le_sub_one_of_lt fits)

/-- The shift never reaches the width of the word, and no product reaches 128 bits. -/
theorem asNanos_backoff (attempt : UInt32) (initial cap : Duration) :
    (backoff attempt initial cap).asNanos =
      clampedDoubling initial.asNanos cap.asNanos 30 (2 ^ 64 - 1) (attempt.toNat - 1) := by
  have small : min (attempt.toNat - 1) 30 ≤ 30 := Nat.min_le_right _ _
  have factor : 2 ^ min (attempt.toNat - 1) 30 ≤ 2 ^ 30 := Nat.pow_le_pow_right Nat.two_pos small
  have product : initial.asNanos * 2 ^ min (attempt.toNat - 1) 30 < 2 ^ 128 :=
    calc initial.asNanos * 2 ^ min (attempt.toNat - 1) 30
      _ ≤ 2 ^ 94 * 2 ^ 30 := Nat.mul_le_mul initial.asNanos_lt.le factor
      _ < 2 ^ 128 := by decide
  have narrow : clampedDoubling initial.asNanos cap.asNanos 30 (2 ^ 64 - 1) (attempt.toNat - 1) < 2 ^ 64 :=
    Nat.lt_of_le_of_lt (Nat.min_le_right _ _) (by decide)
  rw [backoff, checkedShl_one (Nat.lt_of_le_of_lt small (by decide)), Option.getD_some, saturatingMul_of_lt product,
    Duration.asNanos_fromNanos, UInt64.toNat_ofNat']
  exact Nat.mod_eq_of_lt narrow

/-- The delay is exactly the first one doubled before each further attempt, up to the cap. -/
def ExactBackoff (attempt : UInt32) (initial cap : Duration) : Prop :=
  (backoff attempt initial cap).asNanos = min cap.asNanos (initial.asNanos * 2 ^ (attempt.toNat - 1))

/-- The clamps to 64 bits and of the exponent must not be met before the cap. -/
theorem exactBackoff_iff (attempt : UInt32) (initial cap : Duration) :
    ExactBackoff attempt initial cap ↔
      (cap.asNanos < 2 ^ 64 ∨ initial.asNanos * 2 ^ (attempt.toNat - 1) < 2 ^ 64) ∧
      (attempt ≤ 31 ∨ initial.asNanos = 0 ∨ cap.asNanos ≤ initial.asNanos * 2 ^ 30) := by
  have limit : attempt ≤ 31 ↔ attempt.toNat - 1 ≤ 30 := by
    rw [UInt32.le_iff_toNat_le]
    change attempt.toNat ≤ 31 ↔ _
    omega
  rw [ExactBackoff, asNanos_backoff, clampedDoubling_eq_iff, limit, Nat.lt_iff_le_pred (by decide),
    Nat.lt_iff_le_pred (by decide)]

theorem backoff_mono {attempt later : UInt32} (ordered : attempt ≤ later) (initial cap : Duration) :
    (backoff attempt initial cap).asNanos ≤ (backoff later initial cap).asNanos := by
  rw [asNanos_backoff, asNanos_backoff]
  exact clampedDoubling_mono (Nat.sub_le_sub_right (UInt32.le_iff_toNat_le.mp ordered) 1)

/-- From the 31st attempt on the delay no longer changes. -/
theorem backoff_eq_cap_iff {attempt : UInt32} (late : 31 ≤ attempt) (initial cap : Duration) :
    backoff attempt initial cap = cap ↔ cap.asNanos < 2 ^ 64 ∧ cap.asNanos ≤ initial.asNanos * 2 ^ 30 := by
  have reached : 30 ≤ attempt.toNat - 1 := Nat.le_sub_one_of_lt (UInt32.le_iff_toNat_le.mp late)
  rw [← Duration.asNanos_inj, asNanos_backoff, clampedDoubling_eq_cap_iff reached, and_comm,
    Nat.lt_iff_le_pred (by decide)]

theorem backoff_reaches_iff (initial cap : Duration) :
    (∃ bound : UInt32, ∀ attempt ≥ bound, backoff attempt initial cap = cap) ↔
      cap.asNanos < 2 ^ 64 ∧ cap.asNanos ≤ initial.asNanos * 2 ^ 30 := by
  constructor
  · rintro ⟨bound, reached⟩
    have last : bound ≤ 4294967295 := UInt32.le_iff_toNat_le.mpr (Nat.le_of_lt_succ bound.toNat_lt)
    exact (backoff_eq_cap_iff (by decide) initial cap).mp (reached 4294967295 last)
  · intro within
    refine ⟨31, ?_⟩
    intro attempt late
    exact (backoff_eq_cap_iff late initial cap).mpr within

/-- A cap within both clamps lets every delay be exact. -/
theorem exactBackoff_of_cap (attempt : UInt32) {initial cap : Duration} (narrow : cap.asNanos < 2 ^ 64)
    (enough : cap.asNanos ≤ initial.asNanos * 2 ^ 30) : ExactBackoff attempt initial cap :=
  (exactBackoff_iff attempt initial cap).mpr ⟨.inl narrow, .inr (.inr enough)⟩

theorem exactBackoff_default (attempt : UInt32) :
    ExactBackoff attempt defaultInitialRetryDelay defaultMaxRetryDelay :=
  exactBackoff_of_cap attempt (by decide) (by decide)

/-- The delay is exact where neither clamp is met before the cap. It never decreases, and it comes to a cap that lies
within both clamps. -/
theorem backoff_doubles_iff (initial cap : Duration) :
    (∀ attempt : UInt32, ExactBackoff attempt initial cap ↔
      (cap.asNanos < 2 ^ 64 ∨ initial.asNanos * 2 ^ (attempt.toNat - 1) < 2 ^ 64) ∧
      (attempt ≤ 31 ∨ initial.asNanos = 0 ∨ cap.asNanos ≤ initial.asNanos * 2 ^ 30)) ∧
    (∀ attempt later : UInt32, attempt ≤ later →
      (backoff attempt initial cap).asNanos ≤ (backoff later initial cap).asNanos) ∧
    ((∃ bound : UInt32, ∀ attempt ≥ bound, backoff attempt initial cap = cap) ↔
      cap.asNanos < 2 ^ 64 ∧ cap.asNanos ≤ initial.asNanos * 2 ^ 30) := by
  refine ⟨?_, ?_, ?_⟩
  · intro attempt
    exact exactBackoff_iff attempt initial cap
  · intro attempt later ordered
    exact backoff_mono ordered initial cap
  · exact backoff_reaches_iff initial cap

theorem backoff_doubles_iff_default :
    ExactBackoff 50 defaultInitialRetryDelay defaultMaxRetryDelay ∧
      (backoff 2 defaultInitialRetryDelay defaultMaxRetryDelay).asNanos ≤
        (backoff 3 defaultInitialRetryDelay defaultMaxRetryDelay).asNanos ∧
      ∃ bound : UInt32, ∀ attempt ≥ bound,
        backoff attempt defaultInitialRetryDelay defaultMaxRetryDelay = defaultMaxRetryDelay := by
  obtain ⟨doubled, increasing, capped⟩ := backoff_doubles_iff defaultInitialRetryDelay defaultMaxRetryDelay
  refine ⟨(doubled 50).mpr ⟨.inl ?_, .inr (.inr ?_)⟩, increasing 2 3 ?_, capped.mpr ⟨?_, ?_⟩⟩ <;> decide

/-- A nanosecond stops at its 30th doubling and never comes to half a minute, and a longest delay is cut to 64 bits. -/
theorem backoff_not_exact :
    ¬ ExactBackoff 32 (.fromNanos 1) (.fromSecs 30) ∧
      (¬ ∃ bound : UInt32, ∀ attempt ≥ bound, backoff attempt (.fromNanos 1) (.fromSecs 30) = .fromSecs 30) ∧
      ¬ ExactBackoff 1 ⟨18446744073709551615, 999999999, by decide⟩ ⟨18446744073709551615, 999999999, by decide⟩ := by
  refine ⟨?_, ?_, ?_⟩
  · unfold ExactBackoff
    decide
  · rw [backoff_reaches_iff]
    decide
  · unfold ExactBackoff
    decide

namespace Worker

variable {io : FileIo} {cfg : DownloaderConfig} {ifRange : Option String} {cancelled : Bool} {worker next : Worker}
  {event : WorkerEvent} {effect : Effect}

/-- A failure that is not the last one is counted before the worker waits. -/
theorem fail_waits {error : Error} (waits : (worker.fail cfg error).pc = .waiting) :
    (worker.fail cfg error).attempt = worker.attempt + 1 ∧ worker.attempt + 1 < cfg.maxRetries := by
  unfold fail at waits ⊢
  dsimp only at waits ⊢
  split_ifs at waits ⊢ with used
  exact ⟨rfl, Nat.lt_of_not_le used⟩

/-- Only a failed attempt makes a worker wait. -/
theorem step_waits (taken : worker.step io cfg ifRange cancelled event = some (next, effect))
    (waits : next.pc = .waiting) : next.attempt = worker.attempt + 1 ∧ worker.attempt + 1 < cfg.maxRetries := by
  cases step_move taken with
  | checked at_pc =>
      unfold onHead at waits
      split_ifs at waits
  | answered pos response at_pc =>
      unfold onReply at waits ⊢
      split_ifs at waits ⊢
      exact fail_waits waits
  | opened pos body at_pc => cases waits
  | chunk segment size at_pc =>
      unfold onChunk at waits
      dsimp only at waits
      split_ifs at waits
  | ended segment at_pc empty => cases waits
  | stopped segment at_pc => cases waits
  | wrote segment bytes mode at_pc => cases waits
  | passed segment bytes mode idle at_pc => cases waits
  | torn segment bytes kept mode at_pc =>
      rw [release_fst] at waits ⊢
      exact fail_waits waits
  | stored segment written at_pc => cases waits
  | counted segment written at_pc =>
      unfold onCount afterFlush at waits
      split_ifs at waits
  | flushed segment at_pc =>
      unfold afterFlush at waits
      split_ifs at waits
  | finished at_pc reports =>
      rw [release_fst] at waits
      cases waits
  | gaveUp ok at_pc =>
      rw [release_fst] at waits
      cases waits
  | refused event error fault fallible shut => exact fail_waits waits
  | broken event error fault fallible =>
      rw [release_fst] at waits ⊢
      exact fail_waits waits
  | slept at_pc => cases waits
  | interrupted at_pc => cases waits

/-- The delay after an attempt doubles with each failed attempt before it. -/
theorem step_delay {initial cap : Duration} (taken : worker.step io cfg ifRange cancelled event = some (next, effect))
    (waits : next.pc = .waiting) (word : cfg.maxRetries ≤ 2 ^ 32) (narrow : cap.asNanos < 2 ^ 64)
    (enough : cap.asNanos ≤ initial.asNanos * 2 ^ 30) :
    (backoff (UInt32.ofNat next.attempt) initial cap).asNanos =
      min cap.asNanos (initial.asNanos * 2 ^ worker.attempt) := by
  obtain ⟨counted, left⟩ := step_waits taken waits
  have exactly := exactBackoff_of_cap (UInt32.ofNat next.attempt) narrow enough
  have fits : (UInt32.ofNat next.attempt).toNat = worker.attempt + 1 := by
    rw [counted, UInt32.toNat_ofNat']
    exact Nat.mod_eq_of_lt (Nat.lt_of_lt_of_le left word)
  rwa [ExactBackoff, fits, Nat.add_sub_cancel] at exactly

end Worker
end FastDownloader
