/-
This file models `Downloader::download` with the events that it reports and with its progress task.
-/

import FastDownloader.Model.Download
import FastDownloader.Model.Queue

namespace FastDownloader

open Foundation

/-- The speed, the remaining time and the elapsed time are left out. An error stands for its text. -/
inductive Report where
  | queued (id : Nat) (url : String)
  | probing (id : Nat)
  | started (id : Nat) (totalSize : Option Nat) (supportsRange : Bool) (threadCount : Nat) (path : String)
  | progress (id downloaded : Nat) (total : Option Nat)
  | completed (id : Nat) (path : String) (size : Nat)
  | failed (id : Nat) (error : Error)
  | cancelled (id : Nat)
  deriving DecidableEq

def Report.id : Report → Nat
  | .queued id _ | .probing id | .started id _ _ _ _ | .progress id _ _ | .completed id _ _ | .failed id _
  | .cancelled id => id

/-- A task names the file that it saves to. -/
structure SavedTask where
  savePath : String
  task : DownloadTask

/-- The system opens this file for a path and goes through these directories to it. -/
structure Place (File : Type) where
  file : File
  above : List File

/-- The two files are different, and neither is a directory on the way to the other. -/
def Place.Apart {File : Type} (place other : Place File) : Prop :=
  place.file ≠ other.file ∧ place.file ∉ other.above ∧ other.file ∉ place.above

instance {File : Type} [DecidableEq File] (place other : Place File) : Decidable (place.Apart other) :=
  inferInstanceAs (Decidable (_ ∧ _ ∧ _))

def statePathFor (filePath : String) : String := filePath ++ ".dlstate"

/-- A call writes its file, its state and the text that it renames to its state. -/
def callPaths (savePath : String) : List String := [savePath, statePathFor savePath, statePathFor savePath ++ ".tmp"]

/-- A call that saves to the one path touches no file of a call that saves to the other. -/
def SavesApart {File : Type} (resolve : String → Place File) (savePath other : String) : Prop :=
  ∀ path ∈ callPaths savePath, ∀ otherPath ∈ callPaths other, (resolve path).Apart (resolve otherPath)

/--
Each save path has its own disk, which is right only for save paths that are `SavesApart`.
The reporter has seen the reports in this order.
-/
structure ReportStore (Text : Type) where
  disks : String → Disk Text
  reports : List Report

inductive TickerPc where
  | absent
  | starting
  | ticking
  | ended
  deriving DecidableEq

/-- The progress task reads the counter that it shares with its transfer. -/
structure Ticker where
  pc : TickerPc
  total : Option Nat
  downloaded : Nat

inductive ReportingPc where
  | entering
  | inside
  | returned (result : Except Error Nat)

structure Reporting where
  pc : ReportingPc
  download : Download
  ticker : Ticker

/-- The progress task breaks when its interval has a period of zero. -/
inductive ReportingEvent where
  | enter
  | inner (event : DownloadEvent)
  | tick
  | stop
  | broken
  | finish

/-- A cancellation comes from the token of the task and not from an event of the call. -/
def DownloadEvent.cancels : DownloadEvent → Bool
  | .cancel | .multi .cancel | .single .cancel => true
  | _ => false

/-- A transfer with a progress task has a total and a counter. The counter of a closing stream does not move. -/
def Download.transfer (download : Download) : Option (Option Nat × Option Nat) :=
  match download.pc with
  | .multi job multi =>
      match multi.phase with
      | .running | .stopping => some (some job.fileSize, some multi.downloaded)
      | _ => none
  | .single _ single =>
      match single.pc with
      | .streaming stream | .writing stream _ | .flushing stream | .syncing stream =>
          some (stream.total, some stream.pos)
      | .closing total _ => some (total, none)
      | _ => none
  | _ => none

/-- The transfer has told its progress task to stop. -/
def Download.stopping (download : Download) : Bool :=
  match download.pc with
  | .multi _ multi => match multi.phase with
    | .stopping => true
    | _ => false
  | .single _ single => match single.pc with
    | .closing _ _ => true
    | _ => false
  | _ => false

/-- The token of the task is shared by the call, its workers and its attempts. -/
def Download.cancelNow (download : Download) : Download :=
  match download.pc with
  | .multi job multi => { download with pc := .multi job { multi with cancelled := true } }
  | .single job single => { download with pc := .single job { single with cancelled := true } }
  | _ => { download with cancelled := true }

namespace Ticker

def gone : Ticker := ⟨.absent, none, 0⟩

/-- A transfer spawns a progress task when it begins and shares its counter with it. -/
def follow (ticker : Ticker) (download : Download) : Ticker :=
  match download.transfer with
  | none => Ticker.gone
  | some (total, counter) =>
      match ticker.pc with
      | .absent => ⟨.starting, total, counter.getD 0⟩
      | _ => { ticker with downloaded := counter.getD ticker.downloaded }

end Ticker

namespace ReportStore

variable {Text : Type} (store : ReportStore Text)

def report (reports : List Report) : ReportStore Text := { store with reports := store.reports ++ reports }

/-- The disks of the other save paths stay as they are: no task shares a file with another save path. -/
def putDisk (path : String) (disk : Disk Text) : ReportStore Text :=
  { store with disks := fun other => if other = path then disk else store.disks other }

end ReportStore

namespace Reporting

variable {Text : Type} [SerdeJson Text]

def start : Reporting := ⟨.entering, ⟨.parsing, false⟩, .gone⟩

def cancel (reporting : Reporting) : Reporting := { reporting with download := reporting.download.cancelNow }

/-- The choice of the path is reported once the thread count is known. -/
def onProbed (cfg : DownloaderConfig) (task : QueueTask SavedTask) (event : DownloadEvent) (next : Download) :
    List Report :=
  let call : DownloadCall := ⟨task.job.task, cfg⟩
  match event, next.pc with
  | .probed (.ok _), .panicked => []
  | .probed (.ok info), _ =>
      [.started task.id info.size info.supportsRange (if call.canMulti info then call.requestedThreads else 1)
        task.job.savePath]
  | _, _ => []

def terminal (task : QueueTask SavedTask) : Except Error Nat → Report
  | .ok size => .completed task.id task.job.savePath size
  | .error error => if error.isCancelled then .cancelled task.id else .failed task.id error

def emit (reporting : Reporting) (task : QueueTask SavedTask) : Report :=
  .progress task.id reporting.ticker.downloaded reporting.ticker.total

/-- A transfer ends only after it has joined its progress task. -/
def joined (reporting : Reporting) (next : Download) : Bool :=
  next.transfer.isSome || reporting.ticker.pc = .absent || reporting.ticker.pc = .ended

/-- The progress task throws its first tick away and looks at its stop token before each later tick. -/
def tick (task : QueueTask SavedTask) (reporting : Reporting) : Option (List Report × Reporting) :=
  match reporting.ticker.pc with
  | .starting => some ([], { reporting with ticker := { reporting.ticker with pc := .ticking } })
  | .ticking => if reporting.download.stopping then none else some ([reporting.emit task], reporting)
  | _ => none

/-- The last position is reported before the progress task ends. -/
def stop (task : QueueTask SavedTask) (reporting : Reporting) : Option (List Report × Reporting) :=
  match reporting.ticker.pc with
  | .ticking =>
      if reporting.download.stopping then
        some ([reporting.emit task], { reporting with ticker := { reporting.ticker with pc := .ended } })
      else none
  | _ => none

def broken (reporting : Reporting) : Option (List Report × Reporting) :=
  match reporting.ticker.pc with
  | .starting => some ([], { reporting with ticker := { reporting.ticker with pc := .ended } })
  | _ => none

/-- This is one step of the call, its transfer and its progress task. -/
def step (cfg : DownloaderConfig) (io : FileIo) (hasher : Hasher) (task : QueueTask SavedTask) :
    Step (ReportStore Text × Reporting) ReportingEvent := fun (store, reporting) event =>
  match reporting.pc, event with
  | .entering, .enter => some (store.report [.probing task.id], { reporting with pc := .inside })
  | .inside, .inner event =>
      if event.cancels then none
      else
        let disk := store.disks task.job.savePath
        (Download.step io hasher ⟨task.job.task, cfg⟩ (disk, reporting.download) event).bind fun next =>
          if reporting.joined next.2 then
            some ((store.putDisk task.job.savePath next.1).report (onProbed cfg task event next.2),
              { reporting with download := next.2, ticker := reporting.ticker.follow next.2 })
          else none
  | .inside, .tick => (reporting.tick task).map fun next => (store.report next.1, next.2)
  | .inside, .stop => (reporting.stop task).map fun next => (store.report next.1, next.2)
  | .inside, .broken => reporting.broken.map fun next => (store.report next.1, next.2)
  | .inside, .finish =>
      reporting.download.outcome.map fun result =>
        (store.report [terminal task result], { reporting with pc := .returned result })
  | _, _ => none

def outcome (reporting : Reporting) : Option (Except Error Nat) :=
  match reporting.pc with
  | .returned result => some result
  | _ => none

end Reporting

/-- The tasks of a queue share one downloader and its reporter. -/
def reporting (Text : Type) [SerdeJson Text] (cfg : DownloaderConfig) (io : FileIo) (hasher : Hasher) :
    TaskProgram (ReportStore Text) Reporting SavedTask ReportingEvent Nat where
  start _ := Reporting.start
  step := Reporting.step cfg io hasher
  outcome := Reporting.outcome
  cancel := Reporting.cancel
  queued task store := store.report [.queued task.id task.job.task.url]

end FastDownloader
