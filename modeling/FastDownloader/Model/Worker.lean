/-
This file models `worker_loop` and `download_segment` as one process.
Each step ends at an await point or at one access to shared state.
-/

import FastDownloader.Model.Config
import FastDownloader.Model.State

namespace FastDownloader

/-- A completed `write_all` has either reached the file or has only been handed to a background write. -/
inductive FileIo where
  | through
  | background
  deriving DecidableEq, Repr

/-- A handle of the data file carries at most one background write. A failed write waits for its report. -/
inductive Handle where
  | closed
  | idle
  | busy (offset : Nat) (bytes : List UInt8)
  | failed
  deriving DecidableEq, Repr

/-- These are the local variables of `download_segment` and the unread rest of the response body. -/
structure Segment where
  pos : Nat
  bytesSinceFlush : Nat
  body : List UInt8
  deriving DecidableEq, Repr

inductive WorkerPc where
  | skipped
  | head
  | sent (pos : Nat)
  | opening (pos : Nat) (body : List UInt8)
  | streaming (segment : Segment)
  | writing (segment : Segment) (bytes : List UInt8)
  | storing (segment : Segment) (written : Nat)
  | counting (segment : Segment) (written : Nat)
  | flushing (segment : Segment)
  | finishing
  | cancelling
  | waiting
  | done (result : Except Error Unit)

/-- The field `handed` is not in the source. It marks the end of the bytes that `write_all` accepted. -/
structure Worker where
  start : Nat
  stop : Nat
  current : Nat
  handed : Nat
  attempt : Nat
  pc : WorkerPc
  handle : Handle

/-- An answer is absent when the request fails or times out. -/
inductive WorkerEvent where
  | check
  | reply (answer : Option Response)
  | opened (ok : Bool)
  | chunk (size : Nat)
  | streamEnd
  | streamError
  | wrote
  | writeFailed (kept : Nat)
  | store
  | count
  | flushed (ok : Bool)
  | slept
  | interrupted

/-- A worker step touches the shared state in at most one place. -/
inductive Effect where
  | none
  | write (offset : Nat) (bytes : List UInt8)
  | add (bytes : Nat)
  | orphan (offset : Nat) (bytes : List UInt8)

namespace Worker

/-- A range without bytes gets no worker task. -/
def spawn (range : WorkerRange) : Worker where
  start := range.start
  stop := range.stop
  current := range.current
  handed := range.current
  attempt := 0
  pc := if range.start ≥ range.stop then .skipped else .head
  handle := .closed

/-- An ordinary error waits for a retry until the attempts are used up. -/
def fail (cfg : DownloaderConfig) (worker : Worker) (error : Error) : Worker :=
  let attempt := worker.attempt + 1
  if attempt ≥ cfg.maxRetries then
    { worker with attempt := attempt, pc := .done (.error (.retryExhausted attempt error)) }
  else { worker with attempt := attempt, pc := .waiting }

/-- The handle is dropped. Its background write goes on without it. -/
def release (worker : Worker) : Worker × Effect :=
  match worker.handle with
  | .busy offset bytes => ({ worker with handle := .closed }, .orphan offset bytes)
  | _ => ({ worker with handle := .closed }, .none)

/-- A flush waits for the background write and reports its failure. -/
def flushReports (io : FileIo) (handle : Handle) (ok : Bool) : Bool :=
  match io, handle, ok with
  | .through, _, _ => true
  | .background, .idle, true => true
  | .background, .failed, false => true
  | .background, _, _ => false

/-- The worker may not write behind its own end. -/
def writeLen (worker : Worker) (pos chunkLen : Nat) : Nat :=
  if pos + chunkLen > worker.stop then worker.stop - pos else chunkLen

def onHead (cancelled : Bool) (worker : Worker) : Worker :=
  if worker.current < worker.stop then
    if cancelled then { worker with pc := .done (.error .cancelled) }
    else { worker with pc := .sent worker.current }
  else { worker with pc := .done (.ok ()) }

def onReply (cfg : DownloaderConfig) (ifRange : Option String) (worker : Worker) (pos : Nat)
    (response : Response) : Worker :=
  if response.status = 206 then { worker with pc := .opening pos response.body }
  else if response.status = 200 then
    if ifRange.isSome then { worker with pc := .done (.error .resourceChanged) }
    else { worker with pc := .done (.error .noRangeSupport) }
  else if response.status = 416 then
    -- The position moves to the end although no byte was written.
    { worker with current := worker.stop, attempt := 0, pc := .head }
  else worker.fail cfg (.status response.status)

def onChunk (cancelled : Bool) (worker : Worker) (segment : Segment) (size : Nat) : Worker :=
  if cancelled then { worker with pc := .cancelling }
  else
    let chunk := segment.body.take size
    let rest : Segment := { segment with body := segment.body.drop size }
    if chunk.length = 0 then { worker with pc := .streaming rest }
    else
      let length := worker.writeLen segment.pos chunk.length
      if length = 0 then { worker with pc := .finishing }
      else { worker with pc := .writing rest (chunk.take length) }

/-- An accepted write advances the local position before any shared variable moves. -/
def onWrote (worker : Worker) (segment : Segment) (bytes : List UInt8) : Worker :=
  let pos := segment.pos + bytes.length
  { worker with
    handed := pos
    pc := .storing { segment with
      pos := pos, bytesSinceFlush := segment.bytesSinceFlush + bytes.length } bytes.length }

def afterFlush (worker : Worker) (segment : Segment) : Worker :=
  if segment.pos ≥ worker.stop then { worker with pc := .finishing }
  else { worker with pc := .streaming segment }

def onCount (cfg : DownloaderConfig) (worker : Worker) (segment : Segment) : Worker :=
  if segment.bytesSinceFlush ≥ cfg.flushIntervalBytes then { worker with pc := .flushing segment }
  else worker.afterFlush segment

/-- This is one step of a worker. The token `cancelled` is read where the source polls it. -/
def step (io : FileIo) (cfg : DownloaderConfig) (ifRange : Option String) (cancelled : Bool)
    (worker : Worker) (event : WorkerEvent) : Option (Worker × Effect) :=
  match worker.pc, event with
  | .head, .check => some (worker.onHead cancelled, .none)
  | .sent _, .reply none => some (worker.fail cfg .http, .none)
  | .sent pos, .reply (some response) => some (worker.onReply cfg ifRange pos response, .none)
  | .opening pos body, .opened true =>
      some ({ worker with pc := .streaming ⟨pos, 0, body⟩, handle := .idle }, .none)
  | .opening _ _, .opened false => some (worker.fail cfg .io, .none)
  | .streaming segment, .chunk size => some (worker.onChunk cancelled segment size, .none)
  | .streaming segment, .streamEnd =>
      if segment.body.isEmpty then some ({ worker with pc := .finishing }, .none) else none
  | .streaming _, .streamError =>
      if cancelled then some ({ worker with pc := .cancelling }, .none)
      else some (worker.fail cfg .http).release
  | .writing segment bytes, .wrote =>
      match io, worker.handle with
      | .through, _ => some (worker.onWrote segment bytes, .write segment.pos bytes)
      | .background, .idle =>
          some ({ worker.onWrote segment bytes with handle := .busy segment.pos bytes }, .none)
      | .background, _ => none
  | .writing segment bytes, .writeFailed kept =>
      match io, worker.handle with
      | .through, _ => some ((worker.fail cfg .io).release.1, .write segment.pos (bytes.take kept))
      | .background, .failed => some (worker.fail cfg .io).release
      | .background, _ => none
  | .storing segment written, .store =>
      some ({ worker with current := segment.pos, pc := .counting segment written }, .none)
  | .counting segment written, .count => some (worker.onCount cfg segment, .add written)
  | .flushing segment, .flushed ok =>
      if flushReports io worker.handle ok then
        if ok then some (worker.afterFlush { segment with bytesSinceFlush := 0 }, .none)
        else some (worker.fail cfg .io).release
      else none
  | .finishing, .flushed ok =>
      if flushReports io worker.handle ok then
        if ok then some { worker with attempt := 0, pc := .head }.release
        else some (worker.fail cfg .io).release
      else none
  | .cancelling, .flushed ok =>
      if flushReports io worker.handle ok then
        some { worker with pc := .done (.error .cancelled) }.release
      else none
  | .waiting, .slept => some ({ worker with pc := .head }, .none)
  | .waiting, .interrupted =>
      if cancelled then some ({ worker with pc := .done (.error .cancelled) }, .none) else none
  | _, _ => none

def finished (worker : Worker) : Bool :=
  match worker.pc with
  | .skipped => true
  | .done _ => true
  | _ => false

/-- This is the position of the range request in flight. -/
def requested (worker : Worker) : Option Nat :=
  match worker.pc with
  | .sent pos => some pos
  | _ => none

end Worker

end FastDownloader
