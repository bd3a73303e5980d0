/-
This file models `Downloader::download`: the probe, the choice between the two paths, and the final checks.
The events that it reports are left out.
-/

import FastDownloader.Model.MultiThread
import FastDownloader.Model.SingleThread

namespace FastDownloader

open Foundation

/-- A call of `download` has its task and the settings of its downloader. -/
structure DownloadCall where
  task : DownloadTask
  cfg : DownloaderConfig

inductive DownloadPc where
  | parsing
  | preparing
  | probing
  | multi (job : Job) (multi : Multi)
  | single (job : Job) (single : Single)
  | measuring (info : FileInfo)
  | verifying (size : Nat) (expected : Checksum)
  | removing (error : Error)
  | deleting (error : Error)
  | returned (result : Except Error Nat)
  | panicked

structure Download where
  pc : DownloadPc
  cancelled : Bool

/-- The probe gives what it learned or its error. -/
inductive DownloadEvent where
  | cancel
  | parsed (ok : Bool)
  | prepared (ok : Bool)
  | probed (answer : Except Error FileInfo)
  | interrupted
  | multi (act : Act)
  | single (event : SingleEvent)
  | join
  | measured (readable : Bool)
  | hashed (readable : Bool)
  | removed (ok : Bool)
  | deleted (ok : Bool)

/-- The thread count is clamped between one and the maximum. -/
def DownloadCall.requestedThreads (call : DownloadCall) : Nat :=
  max 1 (min (call.task.threadCount.getD call.cfg.defaultThreads) call.cfg.maxThreads)

def DownloadCall.canMulti (call : DownloadCall) (info : FileInfo) : Bool :=
  info.supportsRange && info.size.any (0 < ·) && 1 < call.requestedThreads

/-- The checksum of the caller wins over the digest of the server. -/
def DownloadCall.expectedChecksum (call : DownloadCall) (info : FileInfo) : Option Checksum :=
  call.task.expectedChecksum.or (if call.cfg.verifyServerDigest then info.digest else none)

namespace Download

variable {Text : Type} [SerdeJson Text]

def start (_call : DownloadCall) : Download := ⟨.parsing, false⟩

/-- The assertion of `clamp` fails when the maximum is below one. -/
def onProbed (call : DownloadCall) (download : Download) (info : FileInfo) : Download :=
  if call.cfg.maxThreads < 1 then { download with pc := .panicked }
  else
    let job := ⟨info, call.requestedThreads, call.cfg⟩
    if call.canMulti info then
      { download with pc := .multi job { Multi.start job with cancelled := download.cancelled } }
    else { download with pc := .single job (Single.start download.cancelled) }

/-- The path that was chosen has returned. -/
def onJoin (download : Download) (info : FileInfo) : Except Error Unit → Download
  | .ok () => { download with pc := .measuring info }
  | .error error => { download with pc := .returned (.error error) }

/-- A file of the expected size is hashed when a digest is known. -/
def onMeasured (call : DownloadCall) (download : Download) (info : FileInfo) (size : Nat) : Download :=
  match info.size.filter (· ≠ size) with
  | some expected => { download with pc := .returned (.error (.sizeMismatch expected size)) }
  | none =>
      match call.expectedChecksum info with
      | some expected => { download with pc := .verifying size expected }
      | none => { download with pc := .returned (.ok size) }

/-- This is one step of the call. A join drops the transfer together with the background writes of its handles. -/
def step (io : FileIo) (hasher : Hasher) (call : DownloadCall) :
    Step (Disk Text × Download) DownloadEvent := fun (disk, download) event =>
  match download.pc, event with
  | .multi job multi, .multi act =>
      (Multi.step io job (disk, multi) act).map fun next => (next.1, { download with pc := .multi job next.2 })
  | .single job single, .single event =>
      (Single.step io job (disk, single) event).map fun next => (next.1, { download with pc := .single job next.2 })
  | .multi _ _, .cancel => none
  | .single _ _, .cancel => none
  | _, .cancel => some (disk, { download with cancelled := true })
  | .parsing, .parsed ok =>
      if ok then some (disk, { download with pc := .preparing })
      else some (disk, { download with pc := .returned (.error (.invalidUrl call.task.url)) })
  | .preparing, .prepared ok =>
      if ok then some (disk, { download with pc := .probing })
      else some (disk, { download with pc := .returned (.error .io) })
  | .probing, .probed (.ok info) => some (disk, download.onProbed call info)
  | .probing, .probed (.error error) => some (disk, { download with pc := .returned (.error error) })
  | .probing, .interrupted =>
      if download.cancelled then some (disk, { download with pc := .returned (.error .cancelled) }) else none
  | .multi job multi, .join => multi.outcome.map fun result => (disk, download.onJoin job.info result)
  | .single job single, .join => single.outcome.map fun result => (disk, download.onJoin job.info result)
  | .measuring info, .measured readable =>
      if readable && disk.data.isSome then some (disk, download.onMeasured call info disk.length)
      else some (disk, { download with pc := .returned (.error .io) })
  | .verifying size expected, .hashed readable =>
      match hasher.verifyFile (if readable then disk.contents else none) expected with
      | .ok () => some (disk, { download with pc := .returned (.ok size) })
      | .error error => some (disk, { download with pc := .removing error })
  | .removing error, .removed ok =>
      some (if ok then disk.removeData else disk, { download with pc := .deleting error })
  | .deleting error, .deleted ok =>
      some (if ok then disk.deleteState else disk, { download with pc := .returned (.error error) })
  | _, _ => none

def outcome (download : Download) : Option (Except Error Nat) :=
  match download.pc with
  | .returned result => some result
  | _ => none

end Download

/--
The calls of `download` on one save path share its disk.
A background write that is under way when its call returns or is killed is left out: it does not reach a later call.
-/
def downloads (Text : Type) [SerdeJson Text] (io : FileIo) (hasher : Hasher) :
    Program (Disk Text) Download DownloadCall DownloadEvent (Except Error Nat) where
  start := Download.start
  step := Download.step io hasher
  outcome := Download.outcome

end FastDownloader
