/-
This file lists the operations of the multi-thread path on numbers of 64 bits, and its slices.
-/

import FastDownloader.Model.Overflow
import FastDownloader.Model.Panic

namespace FastDownloader

open Foundation

/-- A request computes `end - 1`. A chunk computes `pos + chunk_len`, and `end - pos` when it is cut. A write adds its
length to `pos` and to `bytes_since_flush`. -/
def Worker.wraps (cancelled : Bool) (worker : Worker) : WorkerEvent → Bool := fun event =>
  match worker.pc, event with
  | .head, .check => worker.current < worker.stop && !cancelled && (checkedSub worker.stop 1).isNone
  | .streaming segment, .chunk size =>
      let chunkLen := (segment.body.take size).length
      !cancelled && chunkLen ≠ 0 &&
        ((checkedAdd wordLimit segment.pos chunkLen).isNone ||
          (segment.pos + chunkLen > worker.stop && (checkedSub worker.stop segment.pos).isNone) ||
          outOfRange chunkLen (worker.writeLen segment.pos chunkLen))
  | .writing segment bytes, .wrote =>
      (checkedAdd wordLimit segment.pos bytes.length).isNone ||
        (checkedAdd wordLimit segment.bytesSinceFlush bytes.length).isNone
  | _, _ => false

/-- This is the addition of `fetch_add`. -/
def Worker.wrapsCounter (downloaded : Nat) (worker : Worker) : WorkerEvent → Bool := fun event =>
  match worker.pc, event with
  | .counting _ written, .count => (checkedAdd wordLimit downloaded written).isNone
  | _, _ => false

/-- The assertion of `split_workers` comes before its arithmetic. The ranges are then summed up. -/
def splitWraps (fileSize threadCount minChunk : Nat) : Bool :=
  0 < fileSize && ((splitWorkersWord fileSize threadCount minChunk).bind initialDownloaded).isNone

namespace Multi

variable {Text : Type} [SerdeJson Text]

def loadWraps (job : Job) (fileSize : Nat) (file : Option Text) : Bool :=
  match load file with
  | .ok state =>
      if resumable job.info fileSize state then (initialDownloaded state.workers).isNone
      else splitWraps fileSize job.threadCount job.cfg.minChunkSize
  | .error _ => splitWraps fileSize job.threadCount job.cfg.minChunkSize

/-- A step wraps around, or it cuts a chunk behind its end. The snapshot of the state task computes no sum. -/
def wraps (job : Job) (disk : Disk Text) (multi : Multi) : Act → Bool := fun act =>
  match multi.phase, act with
  | .loading, .main (.load readable) =>
      job.info.size.any fun fileSize => loadWraps job fileSize (if readable then disk.dlstate else none)
  | .running, .worker index event =>
      multi.workers[index]?.any fun worker =>
        worker.wraps multi.cancelled event || worker.wrapsCounter multi.downloaded event
  | _, _ => false

end Multi

end FastDownloader
