/-
This file lists what one step of a worker can do.
-/

import FastDownloader.Model.Worker

namespace FastDownloader

/-- The event reports a failure. -/
def WorkerEvent.fault : WorkerEvent → Bool
  | .reply none | .opened false | .streamError | .writeFailed _ | .flushed false => true
  | _ => false

namespace Worker

/-- A handle is open exactly while a response is written to the file. -/
def hasHandle (worker : Worker) : Bool :=
  match worker.pc with
  | .streaming _ | .writing _ _ | .storing _ _ | .counting _ _ | .flushing _ | .finishing | .cancelling => true
  | _ => false

/-- An ordinary error can end the attempt here. -/
def fallible (worker : Worker) : Bool :=
  match worker.pc with
  | .sent _ | .opening _ _ | .streaming _ | .writing _ _ | .flushing _ | .finishing => true
  | _ => false

/-- These are the transitions of a worker. -/
inductive Move (io : FileIo) (cfg : DownloaderConfig) (ifRange : Option String) (cancelled : Bool) (worker : Worker) :
    WorkerEvent → Worker → Effect → Prop
  | checked (at_pc : worker.pc = .head) :
      Move io cfg ifRange cancelled worker .check (worker.onHead cancelled) .none
  | answered (pos : Nat) (response : Response) (at_pc : worker.pc = .sent pos) :
      Move io cfg ifRange cancelled worker (.reply (some response)) (worker.onReply cfg ifRange pos response) .none
  | opened (pos : Nat) (body : List UInt8) (at_pc : worker.pc = .opening pos body) :
      Move io cfg ifRange cancelled worker (.opened true)
        { worker with pc := .streaming ⟨pos, 0, body⟩, handle := .idle } .none
  | chunk (segment : Segment) (size : Nat) (at_pc : worker.pc = .streaming segment) :
      Move io cfg ifRange cancelled worker (.chunk size) (worker.onChunk cancelled segment size) .none
  | ended (segment : Segment) (at_pc : worker.pc = .streaming segment) (empty : segment.body = []) :
      Move io cfg ifRange cancelled worker .streamEnd { worker with pc := .finishing } .none
  | stopped (segment : Segment) (at_pc : worker.pc = .streaming segment) :
      Move io cfg ifRange cancelled worker .streamError { worker with pc := .cancelling } .none
  | wrote (segment : Segment) (bytes : List UInt8) (mode : io = .through)
      (at_pc : worker.pc = .writing segment bytes) :
      Move io cfg ifRange cancelled worker .wrote (worker.onWrote segment bytes) (.write segment.pos bytes)
  | passed (segment : Segment) (bytes : List UInt8) (mode : io = .background) (idle : worker.handle = .idle)
      (at_pc : worker.pc = .writing segment bytes) :
      Move io cfg ifRange cancelled worker .wrote
        { worker.onWrote segment bytes with handle := .busy segment.pos bytes } .none
  | torn (segment : Segment) (bytes : List UInt8) (kept : Nat) (mode : io = .through)
      (at_pc : worker.pc = .writing segment bytes) :
      Move io cfg ifRange cancelled worker (.writeFailed kept) (worker.fail cfg .io).release.1
        (.write segment.pos (bytes.take kept))
  | stored (segment : Segment) (written : Nat) (at_pc : worker.pc = .storing segment written) :
      Move io cfg ifRange cancelled worker .store
        { worker with current := segment.pos, pc := .counting segment written } .none
  | counted (segment : Segment) (written : Nat) (at_pc : worker.pc = .counting segment written) :
      Move io cfg ifRange cancelled worker .count (worker.onCount cfg segment) (.add written)
  | flushed (segment : Segment) (at_pc : worker.pc = .flushing segment) :
      Move io cfg ifRange cancelled worker (.flushed true)
        (worker.afterFlush { segment with bytesSinceFlush := 0 }) .none
  | finished (at_pc : worker.pc = .finishing) (reports : flushReports io worker.handle true = true) :
      Move io cfg ifRange cancelled worker (.flushed true)
        ({ worker with attempt := 0, pc := .head } : Worker).release.1
        ({ worker with attempt := 0, pc := .head } : Worker).release.2
  | gaveUp (ok : Bool) (at_pc : worker.pc = .cancelling) :
      Move io cfg ifRange cancelled worker (.flushed ok)
        ({ worker with pc := .done (.error .cancelled) } : Worker).release.1
        ({ worker with pc := .done (.error .cancelled) } : Worker).release.2
  | refused (event : WorkerEvent) (error : Error) (fault : event.fault = true) (fallible : worker.fallible = true)
      (shut : worker.hasHandle = false) :
      Move io cfg ifRange cancelled worker event (worker.fail cfg error) .none
  | broken (event : WorkerEvent) (error : Error) (fault : event.fault = true) (fallible : worker.fallible = true) :
      Move io cfg ifRange cancelled worker event (worker.fail cfg error).release.1 (worker.fail cfg error).release.2
  | slept (at_pc : worker.pc = .waiting) :
      Move io cfg ifRange cancelled worker .slept { worker with pc := .head } .none
  | interrupted (at_pc : worker.pc = .waiting) :
      Move io cfg ifRange cancelled worker .interrupted { worker with pc := .done (.error .cancelled) } .none

variable {io : FileIo} {cfg : DownloaderConfig} {ifRange : Option String} {cancelled : Bool} {worker next : Worker}
  {event : WorkerEvent} {effect : Effect}

/-- A worker that has ended has dropped its handle. -/
theorem closed_of_finished (ended : worker.finished = true) : worker.hasHandle = false := by
  cases at_pc : worker.pc with
  | skipped | done => simp [hasHandle, at_pc]
  | _ => simp [finished, at_pc] at ended

theorem taken_eq {pair : Worker × Effect} (taken : some pair = some (next, effect)) :
    next = pair.1 ∧ effect = pair.2 := by
  obtain rfl := Option.some.inj taken
  exact ⟨rfl, rfl⟩

/-- Each step of a worker is one of the listed transitions. -/
theorem step_move (taken : worker.step io cfg ifRange cancelled event = some (next, effect)) :
    Move io cfg ifRange cancelled worker event next effect := by
  unfold step at taken
  split at taken <;> rename_i at_pc
  · cases taken
    exact .checked at_pc
  · cases taken
    exact .refused _ _ rfl (by simp [fallible, at_pc]) (by simp [hasHandle, at_pc])
  · cases taken
    exact .answered _ _ at_pc
  · cases taken
    exact .opened _ _ at_pc
  · cases taken
    exact .refused _ _ rfl (by simp [fallible, at_pc]) (by simp [hasHandle, at_pc])
  · cases taken
    exact .chunk _ _ at_pc
  · split_ifs at taken with empty
    cases taken
    exact .ended _ at_pc (List.isEmpty_iff.mp empty)
  · split_ifs at taken
    · cases taken
      exact .stopped _ at_pc
    · obtain ⟨rfl, rfl⟩ := taken_eq taken
      exact .broken _ _ rfl (by simp [fallible, at_pc])
  · split at taken
    · cases taken
      exact .wrote _ _ rfl at_pc
    · rename_i idle
      cases taken
      exact .passed _ _ rfl idle at_pc
    · cases taken
  · split at taken
    · cases taken
      exact .torn _ _ _ rfl at_pc
    · obtain ⟨rfl, rfl⟩ := taken_eq taken
      exact .broken _ _ rfl (by simp [fallible, at_pc])
    · cases taken
  · cases taken
    exact .stored _ _ at_pc
  · cases taken
    exact .counted _ _ at_pc
  · split_ifs at taken with reports fine <;> obtain ⟨rfl, rfl⟩ := taken_eq taken
    · exact fine ▸ .flushed _ at_pc
    · exact .broken _ _ (by simp [WorkerEvent.fault, fine]) (by simp [fallible, at_pc])
  · split_ifs at taken with reports fine <;> obtain ⟨rfl, rfl⟩ := taken_eq taken
    · subst fine
      exact .finished at_pc reports
    · exact .broken _ _ (by simp [WorkerEvent.fault, fine]) (by simp [fallible, at_pc])
  · split_ifs at taken
    obtain ⟨rfl, rfl⟩ := taken_eq taken
    exact .gaveUp _ at_pc
  · cases taken
    exact .slept at_pc
  · split_ifs at taken
    cases taken
    exact .interrupted at_pc
  · cases taken

end Worker

end FastDownloader
