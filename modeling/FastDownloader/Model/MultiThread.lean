/-
This file models a call of `multi_thread`: the main task, its workers and the state task, in any interleaving.
The progress task only reads the byte counter and is left out.
-/

import FastDownloader.Foundation.Session
import FastDownloader.Model.Disk
import FastDownloader.Model.StateSave

namespace FastDownloader

open Foundation

inductive Phase where
  | loading
  | opening
  | sizing
  | settling
  | running
  | stopping
  | discarding (error : Error)
  | reopening
  | finalSync
  | deleting
  | returned (result : Except Error Unit)
  | panicked

structure Multi where
  phase : Phase
  workers : List Worker
  downloaded : Nat
  saver : Saver
  cancelled : Bool
  orphans : List (Nat × List UInt8)
  lost : List (Nat × List UInt8)

/-- A load can fail to read a file that is there. The other results are those of the disk calls. -/
inductive MainEvent where
  | load (readable : Bool)
  | created (ok : Bool)
  | resized (ok : Bool)
  | synced (ok : Bool)
  | join
  | conclude
  | deleted (ok : Bool)

/-- The runtime steps decide the background writes of live handles and of dropped handles. -/
inductive Act where
  | cancel
  | main (event : MainEvent)
  | worker (index : Nat) (event : WorkerEvent)
  | saver (event : SaverEvent)
  | land (index : Nat)
  | lose (index kept : Nat)
  | landOrphan (index : Nat)
  | loseOrphan (index kept : Nat)

/-- A worker task returns its result, or its join fails. -/
inductive Joined where
  | returned (result : Except Error Unit)
  | joinError

/-- The first ordinary error is kept. A cancellation only sets a flag. -/
def collectOne (collected : Option Error × Bool) : Joined → Option Error × Bool
  | .returned (.ok ()) => collected
  | .returned (.error error) =>
      if error.isCancelled then (collected.1, true) else (collected.1.or (some error), collected.2)
  | .joinError => (collected.1.or (some .io), collected.2)

def collect (results : List Joined) : Option Error × Bool := results.foldl collectOne (none, false)

namespace Multi

variable {Text : Type} [SerdeJson Text]

def start (_job : Job) : Multi where
  phase := .loading
  workers := []
  downloaded := 0
  saver := Saver.init
  cancelled := false
  orphans := []
  lost := []

/-- The call has chosen its worker ranges and opens the data file next. -/
def begin (multi : Multi) (ranges : List WorkerRange) : Multi :=
  { multi with
    phase := .opening
    workers := ranges.map Worker.spawn
    downloaded := (ranges.map fun range => range.current - range.start).sum }

/-- This is the guard of the resume. -/
def resumable (info : FileInfo) (fileSize : Nat) (state : DownloadState) : Bool :=
  state.fileSize = fileSize && !state.workers.isEmpty && state.matchesResource info.etag info.lastModified

/-- The saved ranges are used when the guard accepts them. Otherwise the file is split afresh. -/
def chooseRanges (job : Job) (fileSize : Nat) (file : Option Text) : Option (List WorkerRange) :=
  match load file with
  | .ok state =>
      if resumable job.info fileSize state then some state.workers
      else splitWorkers fileSize job.threadCount job.cfg.minChunkSize
  | .error _ => splitWorkers fileSize job.threadCount job.cfg.minChunkSize

/-- These results are awaited in the order of the worker handles. -/
def results (multi : Multi) : List Joined :=
  multi.workers.filterMap fun worker => match worker.pc with
    | .done result => some (.returned result)
    | _ => none

/-- The collected results and the byte count decide how the call goes on. -/
def concludeWith (job : Job) (downloaded : Nat) (results : List Joined) : Phase :=
  let collected := collect results
  if collected.2 then .returned (.error .cancelled)
  else match collected.1 with
    | some error => if error.isResourceChanged then .discarding error else .returned (.error error)
    | none =>
        if downloaded ≠ job.fileSize then .returned (.error (.sizeMismatch job.fileSize downloaded))
        else .reopening

def verdict (job : Job) (multi : Multi) : Phase := concludeWith job multi.downloaded multi.results

/-- This is one step of the main task. -/
def mainStep (job : Job) (disk : Disk Text) (multi : Multi) (event : MainEvent) :
    Option (Disk Text × Multi) :=
  match multi.phase, event with
  | .loading, .load readable =>
      match job.info.size with
      | none => some (disk, { multi with phase := .returned (.error .unknownLength) })
      | some fileSize =>
          match chooseRanges job fileSize (if readable then disk.dlstate else none) with
          | none => some (disk, { multi with phase := .panicked })
          | some ranges => some (disk, multi.begin ranges)
  | .opening, .created ok =>
      if ok then some (disk.openCreate, { multi with phase := .sizing })
      else some (disk, { multi with phase := .returned (.error .io) })
  | .sizing, .resized ok =>
      if ok then some (disk.setLen job.fileSize, { multi with phase := .settling })
      else some (disk, { multi with phase := .returned (.error .io) })
  | .settling, .synced ok => some (if ok then disk.sync else disk, { multi with phase := .running })
  | .running, .join =>
      if multi.workers.all Worker.finished then some (disk, { multi with phase := .stopping }) else none
  | .stopping, .conclude =>
      if multi.saver.pc = .finished then some (disk, { multi with phase := multi.verdict job }) else none
  | .discarding error, .deleted ok =>
      some (if ok then disk.deleteState else disk, { multi with phase := .returned (.error error) })
  | .reopening, .created ok =>
      if ok then some (disk, { multi with phase := .finalSync })
      else some (disk, { multi with phase := .returned (.error .io) })
  | .finalSync, .synced ok => some (if ok then disk.sync else disk, { multi with phase := .deleting })
  | .deleting, .deleted ok =>
      some (if ok then disk.deleteState else disk, { multi with phase := .returned (.ok ()) })
  | _, _ => none

def applyEffect (disk : Disk Text) (multi : Multi) : Effect → Disk Text × Multi
  | .none => (disk, multi)
  | .write offset bytes => (disk.write offset bytes, multi)
  | .add bytes => (disk, { multi with downloaded := multi.downloaded + bytes })
  | .orphan offset bytes => (disk, { multi with orphans := (offset, bytes) :: multi.orphans })

/-- Workers run only between the spawn and the join. -/
def workerStep (io : FileIo) (job : Job) (disk : Disk Text) (multi : Multi) (index : Nat)
    (event : WorkerEvent) : Option (Disk Text × Multi) :=
  match multi.phase, multi.workers[index]? with
  | .running, some worker =>
      (worker.step io job.cfg job.info.ifRangeValidator multi.cancelled event).map fun next =>
        applyEffect disk { multi with workers := multi.workers.set index next.1 } next.2
  | _, _ => none

def applySaverEffect (disk : Disk Text) : SaverEffect → Disk Text
  | .none => disk
  | .sync => disk.sync
  | .save taken => disk.saveState (SerdeJson.toVec taken)

/-- The state task stops once the workers have joined. -/
def saverStep (job : Job) (disk : Disk Text) (multi : Multi) (event : SaverEvent) :
    Option (Disk Text × Multi) :=
  let stepped (stopping : Bool) :=
    (multi.saver.step job multi.workers stopping event).map fun next =>
      (applySaverEffect disk next.2, { multi with saver := next.1 })
  match multi.phase with
  | .running => stepped false
  | .stopping => stepped true
  | _ => none

/-- A background write takes effect, or only its first bytes do and the handle keeps the error. -/
def landStep (disk : Disk Text) (multi : Multi) (index : Nat) (kept : Option Nat) :
    Option (Disk Text × Multi) :=
  match multi.workers[index]? with
  | some worker =>
      match worker.handle, kept with
      | .busy offset bytes, none =>
          some (disk.write offset bytes,
            { multi with workers := multi.workers.set index { worker with handle := .idle } })
      | .busy offset bytes, some kept =>
          some (disk.write offset (bytes.take kept),
            { multi with
              workers := multi.workers.set index { worker with handle := .failed }
              lost := (offset + kept, bytes.drop kept) :: multi.lost })
      | _, _ => none
  | none => none

def orphanStep (disk : Disk Text) (multi : Multi) (index : Nat) (kept : Option Nat) :
    Option (Disk Text × Multi) :=
  match multi.orphans[index]?, kept with
  | some (offset, bytes), none =>
      some (disk.write offset bytes, { multi with orphans := multi.orphans.eraseIdx index })
  | some (offset, bytes), some kept =>
      some (disk.write offset (bytes.take kept),
        { multi with
          orphans := multi.orphans.eraseIdx index
          lost := (offset + kept, bytes.drop kept) :: multi.lost })
  | none, _ => none

/-- This is one step of the whole call. -/
def step (io : FileIo) (job : Job) : Step (Disk Text × Multi) Act
  | (disk, multi), .cancel => some (disk, { multi with cancelled := true })
  | (disk, multi), .main event => mainStep job disk multi event
  | (disk, multi), .worker index event => workerStep io job disk multi index event
  | (disk, multi), .saver event => saverStep job disk multi event
  | (disk, multi), .land index => landStep disk multi index none
  | (disk, multi), .lose index kept => landStep disk multi index (some kept)
  | (disk, multi), .landOrphan index => orphanStep disk multi index none
  | (disk, multi), .loseOrphan index kept => orphanStep disk multi index (some kept)

/-- The join of a worker task fails when the runtime loses the task, so the awaited results are given from outside. -/
def joinedStep (io : FileIo) (job : Job) (results : List Joined) : Step (Disk Text × Multi) Act :=
  fun state act =>
    match state.2.phase, act with
    | .stopping, .main .conclude =>
        if state.2.saver.pc = .finished then
          some (state.1, { state.2 with phase := concludeWith job state.2.downloaded results })
        else none
    | _, _ => step io job state act

/-- Without a failed join the awaited results are those of the workers. -/
theorem joinedStep_results (io : FileIo) (job : Job) (disk : Disk Text) (multi : Multi) :
    joinedStep io job multi.results (disk, multi) = step io job (disk, multi) := by
  funext act
  unfold joinedStep
  dsimp only
  split
  · rename_i at_phase
    change _ = mainStep job disk multi .conclude
    simp only [mainStep, at_phase, verdict]
  · rfl

def outcome (multi : Multi) : Option (Except Error Unit) :=
  match multi.phase with
  | .returned result => some result
  | _ => none

end Multi

/--
The calls of `multi_thread` on one save path share its disk.
A background write that is under way when its call returns or is killed is left out: it does not reach a later call.
-/
def multiThread (Text : Type) [SerdeJson Text] (io : FileIo) :
    Program (Disk Text) Multi Job Act (Except Error Unit) where
  start := Multi.start
  step := Multi.step io
  outcome := Multi.outcome

end FastDownloader
