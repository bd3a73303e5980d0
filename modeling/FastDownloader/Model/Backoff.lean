/-
This file models the delay between two attempts.
-/

import Mathlib.Algebra.Order.Ring.Nat
import Mathlib.Tactic.Common

namespace FastDownloader

/-- A duration has whole seconds in 64 bits and less than a second in nanoseconds. -/
structure Duration where
  secs : UInt64
  nanos : Nat
  inside : nanos < 1000000000
  deriving DecidableEq, Repr

namespace Duration

/-- The source keeps this number in 128 bits. -/
def asNanos (duration : Duration) : Nat := duration.secs.toNat * 1000000000 + duration.nanos

def fromNanos (nanos : UInt64) : Duration :=
  ⟨nanos / 1000000000, nanos.toNat % 1000000000, Nat.mod_lt _ (by decide)⟩

def fromMillis (millis : UInt64) : Duration :=
  ⟨millis / 1000, millis.toNat % 1000 * 1000000, by omega⟩

def fromSecs (secs : UInt64) : Duration := ⟨secs, 0, by decide⟩

end Duration

def defaultInitialRetryDelay : Duration := .fromMillis 500

def defaultMaxRetryDelay : Duration := .fromSecs 30

/-- This is `u64::checked_shl`. A shift drops the bits that leave the word. -/
def checkedShl (value shift : Nat) : Option Nat :=
  if shift < 64 then some (value * 2 ^ shift % 2 ^ 64) else none

/-- This is `u128::saturating_mul`. -/
def saturatingMul (left right : Nat) : Nat := min (left * right) (2 ^ 128 - 1)

/-- The exponent is clamped before the shift, and the nanoseconds are clamped to 64 bits before the cast. -/
def backoff (attempt : UInt32) (initial cap : Duration) : Duration :=
  let factor := (checkedShl 1 (min (attempt.toNat - 1) 30)).getD 1
  let nanos := saturatingMul initial.asNanos factor
  let capped := min nanos cap.asNanos
  Duration.fromNanos (UInt64.ofNat (min capped (2 ^ 64 - 1)))

end FastDownloader
