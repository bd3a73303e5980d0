/-
This file models `state_save_task`, which writes the positions of all workers to the state file.
-/

import FastDownloader.Model.Worker
import FastDownloader.Model.State

namespace FastDownloader

inductive SaverPc where
  | starting
  | idle
  | loading (loaded : List Nat)
  | syncing (snapshot : DownloadState)
  | saving (snapshot : DownloadState)
  | finished
  deriving DecidableEq

/-- The sync handle is present only in durable mode and only when its open succeeded. -/
structure Saver where
  pc : SaverPc
  syncFile : Bool
  final : Bool

def Saver.init : Saver := ⟨.starting, false, false⟩

inductive SaverEvent where
  | opened (ok : Bool)
  | tick
  | halt
  | load
  | synced (ok : Bool)
  | saved (ok : Bool)

inductive SaverEffect where
  | none
  | sync
  | save (snapshot : DownloadState)

/-- The loaded positions are paired with the fixed range of each worker. -/
def snapshot (job : Job) (workers : List Worker) (loaded : List Nat) : DownloadState :=
  (DownloadState.new job.info.finalUrl job.fileSize
    (List.zipWith (fun worker current => ⟨worker.start, current, worker.stop⟩) workers loaded)).withResourceId
      job.info.etag job.info.lastModified

/-- The positions are read one after another while the workers move.
A save writes a temporary file and renames it, so the state file changes only when the save succeeds. -/
def Saver.step (job : Job) (workers : List Worker) (stopping : Bool) (saver : Saver) :
    SaverEvent → Option (Saver × SaverEffect) := fun event =>
  match saver.pc, event with
  | .starting, .opened ok =>
      -- An interval of zero panics in the timer. The call ignores it, and no checkpoint is ever written.
      if job.cfg.stateSaveInterval = 0 then some ({ saver with pc := .finished }, .none)
      else some ({ saver with pc := .idle, syncFile := job.cfg.durableResume && ok }, .none)
  | .idle, .tick => if stopping then none else some ({ saver with pc := .loading [] }, .none)
  | .idle, .halt => if stopping then some ({ saver with pc := .loading [], final := true }, .none) else none
  | .loading loaded, .load =>
      match workers[loaded.length]? with
      | some worker =>
          some ({ saver with pc := .loading (loaded ++ [min worker.current worker.stop]) }, .none)
      | none =>
          let taken := snapshot job workers loaded
          if saver.syncFile then some ({ saver with pc := .syncing taken }, .none)
          else some ({ saver with pc := .saving taken }, .none)
  | .syncing taken, .synced ok =>
      some ({ saver with pc := .saving taken }, if ok then .sync else .none)
  | .saving taken, .saved ok =>
      some ({ saver with pc := if saver.final then .finished else .idle }, if ok then .save taken else .none)
  | _, _ => none

end FastDownloader
