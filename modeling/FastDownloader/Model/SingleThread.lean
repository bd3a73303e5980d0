/-
This file models `single_thread` and its attempts as one process.
Each attempt flushes its own handle before it ends, so no write outlives an attempt.
-/

import FastDownloader.Foundation.Transition
import FastDownloader.Model.Disk
import FastDownloader.Model.Worker

namespace FastDownloader

open Foundation

/-- These are the local variables of `single_thread_attempt` and the unread rest of the response body. -/
structure Stream where
  pos : Nat
  total : Option Nat
  bytesSinceFlush : Nat
  body : List UInt8
  deriving DecidableEq

inductive SinglePc where
  | head
  | looking
  | sent (existing : Nat) (resume : Bool)
  | creating (total : Option Nat) (body : List UInt8)
  | opening (stream : Stream)
  | streaming (stream : Stream)
  | writing (stream : Stream) (bytes : List UInt8)
  | flushing (stream : Stream)
  | syncing (stream : Stream)
  | closing (total : Option Nat) (result : Except Error Unit)
  | measuring (total : Nat)
  | waiting
  | returned (result : Except Error Unit)
  | panicked

structure Single where
  pc : SinglePc
  attempt : Nat
  handle : Handle
  cancelled : Bool

/-- A length of the file that cannot be read counts as zero. The other results are as for a worker. -/
inductive SingleEvent where
  | cancel
  | check
  | stat (readable : Bool)
  | reply (answer : Option Response)
  | created (ok : Bool)
  | opened (ok : Bool)
  | chunk (size : Nat)
  | streamEnd
  | streamError
  | wrote
  | writeFailed (kept : Nat)
  | land
  | lose (kept : Nat)
  | flushed (ok : Bool)
  | synced (ok : Bool)
  | closed (synced : Bool)
  | measured (readable : Bool)
  | slept
  | interrupted

/-- The stream has reached its total. -/
def Stream.full (stream : Stream) : Bool := stream.total.any fun total => total ≤ stream.pos

/-- The write ends at the total when there is one. -/
def Stream.writeLen (stream : Stream) (chunkLen : Nat) : Nat :=
  match stream.total with
  | some total => min (total - stream.pos) chunkLen
  | none => chunkLen

namespace Single

variable {Text : Type}

def start (cancelled : Bool) : Single := ⟨.head, 0, .closed, cancelled⟩

/-- A cancelled attempt ends the call. Another error waits for a retry until the attempts are used up. -/
def fail (cfg : DownloaderConfig) (single : Single) (error : Error) : Single :=
  if error.isCancelled then { single with pc := .returned (.error .cancelled) }
  else
    let attempt := single.attempt + 1
    if attempt ≥ cfg.maxRetries then
      { single with attempt := attempt, pc := .returned (.error (.retryExhausted attempt error)) }
    else { single with attempt := attempt, pc := .waiting }

def onHead (single : Single) : Single :=
  if single.cancelled then { single with pc := .returned (.error .cancelled) } else { single with pc := .looking }

/-- A file that has reached the expected size counts as complete. The token is not read again before the request. -/
def onStat (job : Job) (single : Single) (existing : Nat) : Single :=
  if job.info.size.any (fun total => total ≤ existing) && 0 < existing then
    { single with pc := .returned (.ok ()) }
  else { single with pc := .sent existing (0 < existing && job.info.supportsRange) }

def onReply (job : Job) (single : Single) (existing : Nat) (resume : Bool) (response : Response) : Single :=
  match resume, response.status with
  | true, 206 =>
      { single with pc := .opening ⟨existing, response.rangeTotal.or job.info.size, 0, response.body⟩ }
  | _, 200 => { single with pc := .creating (response.lengthTotal.or job.info.size) response.body }
  | false, 206 => { single with pc := .creating job.info.size response.body }
  | _, status =>
      if isSuccess status then { single with pc := .panicked }
      else single.fail job.cfg (.status status)

def onChunk (single : Single) (stream : Stream) (size : Nat) : Single :=
  let chunk := stream.body.take size
  let rest := { stream with body := stream.body.drop size }
  if single.cancelled then { single with pc := .closing stream.total (.error .cancelled) }
  else if chunk.isEmpty then { single with pc := .streaming rest }
  else if stream.full then { single with pc := .closing stream.total (.ok ()) }
  else { single with pc := .writing rest (chunk.take (stream.writeLen chunk.length)) }

/-- The position moves as soon as `write_all` returns. -/
def onWrote (cfg : DownloaderConfig) (single : Single) (stream : Stream) (bytes : List UInt8) : Single :=
  let moved := { stream with
    pos := stream.pos + bytes.length
    bytesSinceFlush := stream.bytesSinceFlush + bytes.length }
  if moved.bytesSinceFlush ≥ cfg.flushIntervalBytes then { single with pc := .flushing moved }
  else { single with pc := .streaming moved }

def onFlushed (cfg : DownloaderConfig) (single : Single) (stream : Stream) : Single :=
  if cfg.durableResume then { single with pc := .syncing stream }
  else { single with pc := .streaming { stream with bytesSinceFlush := 0 } }

/-- A finished stream of known length is measured. -/
def onClosed (cfg : DownloaderConfig) (single : Single) (total : Option Nat) (result : Except Error Unit) :
    Single :=
  let left := { single with handle := .closed }
  match result, total with
  | .error error, _ => left.fail cfg error
  | .ok (), some total => { left with pc := .measuring total }
  | .ok (), none => { left with pc := .returned (.ok ()) }

def onMeasured (cfg : DownloaderConfig) (single : Single) (total onDisk : Nat) : Single :=
  if onDisk ≠ total then single.fail cfg (.sizeMismatch total onDisk)
  else { single with pc := .returned (.ok ()) }

/-- The flush before the end of an attempt waits for the background write. Its result is dropped. -/
def settled (io : FileIo) (handle : Handle) : Bool :=
  match io, handle with
  | .background, .busy _ _ => false
  | _, _ => true

/-- This is one step of the call. -/
def step (io : FileIo) (job : Job) : Step (Disk Text × Single) SingleEvent := fun (disk, single) event =>
  match single.pc, event with
  | _, .cancel => some (disk, { single with cancelled := true })
  | _, .land =>
      match single.handle with
      | .busy offset bytes => some (disk.write offset bytes, { single with handle := .idle })
      | _ => none
  | _, .lose kept =>
      match single.handle with
      | .busy offset bytes => some (disk.write offset (bytes.take kept), { single with handle := .failed })
      | _ => none
  | .head, .check => some (disk, single.onHead)
  | .looking, .stat readable => some (disk, single.onStat job (if readable then disk.length else 0))
  | .sent _ _, .reply none => some (disk, single.fail job.cfg .http)
  | .sent existing resume, .reply (some response) => some (disk, single.onReply job existing resume response)
  | .sent _ _, .interrupted =>
      if single.cancelled then some (disk, { single with pc := .returned (.error .cancelled) }) else none
  | .creating total body, .created ok =>
      if ok then some (disk.create, { single with pc := .opening ⟨0, total, 0, body⟩ })
      else some (disk, single.fail job.cfg .io)
  | .opening stream, .opened ok =>
      if ok then some (disk.openCreate, { single with pc := .streaming stream, handle := .idle })
      else some (disk, single.fail job.cfg .io)
  | .streaming stream, .chunk size => some (disk, single.onChunk stream size)
  | .streaming stream, .streamEnd =>
      if stream.body.isEmpty then some (disk, { single with pc := .closing stream.total (.ok ()) }) else none
  | .streaming stream, .streamError =>
      let error : Error := if single.cancelled then .cancelled else .http
      some (disk, { single with pc := .closing stream.total (.error error) })
  | .writing stream bytes, .wrote =>
      match io, single.handle with
      | .through, _ => some (disk.write stream.pos bytes, single.onWrote job.cfg stream bytes)
      | .background, .idle =>
          some (disk, { single with handle := .busy stream.pos bytes }.onWrote job.cfg stream bytes)
      | .background, _ => none
  | .writing stream bytes, .writeFailed kept =>
      match io, single.handle with
      | .through, _ =>
          some (disk.write stream.pos (bytes.take kept),
            { single with pc := .closing stream.total (.error .io) })
      | .background, .failed => some (disk, { single with pc := .closing stream.total (.error .io) })
      | .background, _ => none
  | .flushing stream, .flushed ok =>
      if Worker.flushReports io single.handle ok then
        if ok then some (disk, single.onFlushed job.cfg stream)
        else some (disk, { single with pc := .closing stream.total (.error .io) })
      else none
  | .syncing stream, .synced ok =>
      if ok then some (disk.sync, { single with pc := .streaming { stream with bytesSinceFlush := 0 } })
      else some (disk, { single with pc := .closing stream.total (.error .io) })
  | .closing total result, .closed synced =>
      if settled io single.handle then
        some (if synced then disk.sync else disk, single.onClosed job.cfg total result)
      else none
  | .measuring total, .measured readable =>
      if readable then some (disk, single.onMeasured job.cfg total disk.length)
      else some (disk, single.fail job.cfg .io)
  | .waiting, .slept => some (disk, { single with pc := .head })
  | .waiting, .interrupted =>
      if single.cancelled then some (disk, { single with pc := .returned (.error .cancelled) }) else none
  | _, _ => none

def outcome (single : Single) : Option (Except Error Unit) :=
  match single.pc with
  | .returned result => some result
  | _ => none

end Single

end FastDownloader
