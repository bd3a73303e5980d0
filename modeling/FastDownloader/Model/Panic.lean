/-
This file lists the panic points of the orchestration: subtractions, slices, assertions and the unreachable arm.
-/

import FastDownloader.Model.Download

namespace FastDownloader

/-- A subtraction of unsigned numbers must not go below zero. -/
def underflows (minuend subtrahend : Nat) : Bool := minuend < subtrahend

/-- A slice must not end behind its buffer. -/
def outOfRange (length count : Nat) : Bool := length < count

/-- A request computes `end - 1`. A chunk that reaches behind the end computes `end - pos` and cuts the chunk. -/
def Worker.panics (cancelled : Bool) (worker : Worker) : WorkerEvent → Bool := fun event =>
  match worker.pc, event with
  | .head, .check => worker.current < worker.stop && !cancelled && underflows worker.stop 1
  | .streaming segment, .chunk size =>
      let chunkLen := (segment.body.take size).length
      !cancelled && chunkLen ≠ 0 &&
        ((segment.pos + chunkLen > worker.stop && underflows worker.stop segment.pos) ||
          outOfRange chunkLen (worker.writeLen segment.pos chunkLen))
  | _, _ => false

/-- The split asserts that there is a byte, and it divides by the number of its chunks. -/
def splitPanics (fileSize threadCount minChunk : Nat) : Bool :=
  fileSize = 0 || effectiveThreads fileSize threadCount minChunk = 0

namespace Multi

variable {Text : Type} [SerdeJson Text]

/-- The saved ranges are summed up by `current - start`. Without them the file is split. -/
def loadPanics (job : Job) (fileSize : Nat) (file : Option Text) : Bool :=
  match load file with
  | .ok state =>
      if resumable job.info fileSize state then
        state.workers.any fun range => underflows range.current range.start
      else splitPanics fileSize job.threadCount job.cfg.minChunkSize
  | .error _ => splitPanics fileSize job.threadCount job.cfg.minChunkSize

def panics (job : Job) (disk : Disk Text) (multi : Multi) : Act → Bool := fun act =>
  match multi.phase, act with
  | .loading, .main (.load readable) =>
      job.info.size.any fun fileSize => loadPanics job fileSize (if readable then disk.dlstate else none)
  | .running, .worker index event => multi.workers[index]?.any fun worker => worker.panics multi.cancelled event
  | _, _ => false

end Multi

/-- The last arm of the status match takes each success that the arms before it leave. -/
def unreachableArm (resume : Bool) (status : Nat) : Bool :=
  match resume, status with
  | true, 206 => false
  | _, 200 => false
  | false, 206 => false
  | _, status => isSuccess status

/-- A chunk is cut at `t - pos`. -/
def Single.panics (single : Single) : SingleEvent → Bool := fun event =>
  match single.pc, event with
  | .sent _ resume, .reply (some response) => unreachableArm resume response.status
  | .streaming stream, .chunk size =>
      let chunkLen := (stream.body.take size).length
      !single.cancelled && chunkLen ≠ 0 && !stream.full &&
        (stream.total.any (fun total => underflows total stream.pos) ||
          outOfRange chunkLen (stream.writeLen chunkLen))
  | _, _ => false

/-- A step of a call reaches a panic point. The clamp of the thread count asserts that its bounds are in order. -/
def Download.panics {Text : Type} [SerdeJson Text] (call : DownloadCall) (disk : Disk Text) (download : Download) :
    DownloadEvent → Bool := fun event =>
  match download.pc, event with
  | .probing, .probed (.ok _) => call.cfg.maxThreads < 1
  | .multi job multi, .multi act => multi.panics job disk act
  | .single _ single, .single event => single.panics event
  | _, _ => false

end FastDownloader
