/-
This file repeats the arithmetic of the resume state with numbers of 64 bits.
A result is absent where the source would wrap, underflow or divide by zero.
-/

import FastDownloader.Foundation.Checked
import FastDownloader.Model.State

namespace FastDownloader

open Foundation

/-- The numbers of the source are below this one. -/
def wordLimit : Nat := 2 ^ 64

def WorkerRange.isDone (range : WorkerRange) : Bool := range.current ≥ range.stop

/-- The same sum is the first value of `downloaded` in `multi_thread`. -/
def initialDownloaded (workers : List WorkerRange) : Option Nat :=
  (workers.mapM fun worker => checkedSub worker.current worker.start).bind (checkedSum wordLimit)

def DownloadState.totalDownloaded (state : DownloadState) : Option Nat := initialDownloaded state.workers

/-- This is `u64::div_ceil`. -/
def divCeil (dividend divisor : Nat) : Option Nat :=
  if divisor = 0 then none
  else if dividend % divisor > 0 then checkedAdd wordLimit (dividend / divisor) 1
  else some (dividend / divisor)

def splitLoop (fileSize chunk : Nat) : Nat → Nat → Option (List WorkerRange)
  | 0, _ => some []
  | remaining + 1, pos =>
      (if remaining = 0 then some fileSize else checkedAdd wordLimit pos chunk).bind fun stop =>
        (splitLoop fileSize chunk remaining stop).map fun workers => ⟨pos, pos, stop⟩ :: workers

def effectiveWord (fileSize threadCount minChunk : Nat) : Option Nat :=
  let threadCount := max threadCount 1
  if minChunk > 0 then (divCeil fileSize minChunk).map fun chunks => max (min threadCount chunks) 1
  else some threadCount

/-- The loop compares its index with `effective - 1`. -/
def splitWorkersWord (fileSize threadCount minChunk : Nat) : Option (List WorkerRange) :=
  if fileSize > 0 then
    (effectiveWord fileSize threadCount minChunk).bind fun effective =>
      if effective = 0 then none
      else (checkedSub effective 1).bind fun _ => splitLoop fileSize (fileSize / effective) effective 0
  else none

end FastDownloader
