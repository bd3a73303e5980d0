/-
This file models the speed meter and the events that a progress task emits with it.
-/

import FastDownloader.Model.Report

namespace FastDownloader

/-- A sample is an instant, in nanoseconds, and the bytes so far. -/
structure SpeedMeter where
  window : Nat
  samples : List (Nat × Nat)
  capacity : Nat

structure ProgressEvent where
  id : Nat
  downloaded : Nat
  total : Option Nat
  speedBps : Nat
  etaSecs : Option Nat
  deriving DecidableEq

namespace SpeedMeter

def new (window : Nat) : SpeedMeter := ⟨window, [], 1024⟩

/-- Samples behind the window are dropped although no byte has arrived. -/
def record (meter : SpeedMeter) (now cumulativeBytes : Nat) : SpeedMeter :=
  let kept := meter.samples.dropWhile fun sample => now - sample.1 > meter.window
  let samples := kept ++ [(now, cumulativeBytes)]
  { meter with samples := samples.drop (samples.length - meter.capacity) }

/-- `Duration::as_secs_f64` -/
def asSecsF64 (nanos : Nat) : Float :=
  (nanos / 1000000000).toUInt64.toFloat + (nanos % 1000000000).toUInt64.toFloat / 1000000000

/-- The bytes per second. The cast back to an integer cuts the fraction off. -/
def rate (bytes nanos : Nat) : Nat := (max (bytes.toUInt64.toFloat / asSecsF64 nanos) 0).toUInt64.toNat

/-- The durations are compared before they become floats, which keep their order. -/
def speedBps (meter : SpeedMeter) (now : Nat) : Nat :=
  match meter.samples with
  | [] | [_] => 0
  | (tOld, bOld) :: second :: rest =>
      let bNew := (rest.getLastD second).2
      let elapsed := now - tOld
      rate (bNew - bOld) (if elapsed > meter.window then meter.window else max elapsed 1000000)

def emit (id : Nat) (total : Option Nat) (meter : SpeedMeter) (now cur : Nat) : ProgressEvent × SpeedMeter :=
  let meter := meter.record now cur
  let speed := meter.speedBps now
  let eta := total.bind fun t => if speed = 0 ∨ cur ≥ t then none else some ((t - cur) / speed)
  (⟨id, cur, total, speed, eta⟩, meter)

/-- These are the events of a progress task that reads the clock and the counter at each tick and once at its end. -/
def emits (id : Nat) (total : Option Nat) : SpeedMeter → List (Nat × Nat) → List ProgressEvent
  | _, [] => []
  | meter, (now, cur) :: ticks =>
      let emitted := meter.emit id total now cur
      emitted.1 :: emitted.2.emits id total ticks

end SpeedMeter

/-- Elsewhere the event is reported without its speed. -/
def ProgressEvent.report (event : ProgressEvent) : Report := .progress event.id event.downloaded event.total

end FastDownloader
