/-
This file lists what one step of a single-thread call can do.
-/

import FastDownloader.Proof.SingleThread.Stream

namespace FastDownloader

open Foundation

/-- The event reports a failure. -/
def SingleEvent.fault : SingleEvent → Bool
  | .reply none | .created false | .opened false | .streamError | .writeFailed _ | .flushed false | .synced false
  | .measured false => true
  | _ => false

namespace Single

variable {Text : Type} {io : FileIo} {job : Job} {disk : Disk Text} {single : Single} {event : SingleEvent}
  {next : Disk Text × Single}

/-- These are the transitions of a call. -/
inductive Move (io : FileIo) (job : Job) (disk : Disk Text) (single : Single) :
    SingleEvent → Disk Text → Single → Prop
  | cancelled : Move io job disk single .cancel disk { single with cancelled := true }
  | landed (offset : Nat) (bytes : List UInt8) (held : single.handle = .busy offset bytes) :
      Move io job disk single .land (disk.write offset bytes) { single with handle := .idle }
  | lost (kept offset : Nat) (bytes : List UInt8) (held : single.handle = .busy offset bytes) :
      Move io job disk single (.lose kept) (disk.write offset (bytes.take kept)) { single with handle := .failed }
  | stopped (at_pc : single.pc = .head) (cancelled : single.cancelled = true) :
      Move io job disk single .check disk { single with pc := .returned (.error .cancelled) }
  | began (at_pc : single.pc = .head) (calm : single.cancelled = false) :
      Move io job disk single .check disk { single with pc := .looking }
  | looked (readable : Bool) (at_pc : single.pc = .looking) :
      Move io job disk single (.stat readable) disk (single.onStat job (if readable then disk.length else 0))
  | answered (existing : Nat) (resume : Bool) (response : Response) (at_pc : single.pc = .sent existing resume) :
      Move io job disk single (.reply (some response)) disk (single.onReply job existing resume response)
  | created (total : Option Nat) (body : List UInt8) (at_pc : single.pc = .creating total body) :
      Move io job disk single (.created true) disk.create { single with pc := .opening ⟨0, total, 0, body⟩ }
  | opened (stream : Stream) (at_pc : single.pc = .opening stream) :
      Move io job disk single (.opened true) disk.openCreate { single with pc := .streaming stream, handle := .idle }
  | chunk (stream : Stream) (size : Nat) (at_pc : single.pc = .streaming stream) :
      Move io job disk single (.chunk size) disk (single.onChunk stream size)
  | ended (stream : Stream) (at_pc : single.pc = .streaming stream) (empty : stream.body = []) :
      Move io job disk single .streamEnd disk { single with pc := .closing stream.total (.ok ()) }
  | wrote (stream : Stream) (bytes : List UInt8) (mode : io = .through) (at_pc : single.pc = .writing stream bytes) :
      Move io job disk single .wrote (disk.write stream.pos bytes) (single.onWrote job.cfg stream bytes)
  | passed (stream : Stream) (bytes : List UInt8) (mode : io = .background) (idle : single.handle = .idle)
      (at_pc : single.pc = .writing stream bytes) :
      Move io job disk single .wrote disk ({ single with handle := .busy stream.pos bytes }.onWrote job.cfg stream bytes)
  | torn (stream : Stream) (bytes : List UInt8) (kept : Nat) (mode : io = .through)
      (at_pc : single.pc = .writing stream bytes) :
      Move io job disk single (.writeFailed kept) (disk.write stream.pos (bytes.take kept))
        { single with pc := .closing stream.total (.error .io) }
  | flushed (stream : Stream) (at_pc : single.pc = .flushing stream) :
      Move io job disk single (.flushed true) disk (single.onFlushed job.cfg stream)
  | synced (stream : Stream) (at_pc : single.pc = .syncing stream) :
      Move io job disk single (.synced true) disk.sync
        { single with pc := .streaming { stream with bytesSinceFlush := 0 } }
  | broken (event : SingleEvent) (total : Option Nat) (error : Error) (fault : event.fault = true)
      (opened : single.hasHandle = true) :
      Move io job disk single event disk { single with pc := .closing total (.error error) }
  | closed (total : Option Nat) (result : Except Error Unit) (synced : Bool)
      (at_pc : single.pc = .closing total result) (settled : Single.settled io single.handle = true) :
      Move io job disk single (.closed synced) (if synced then disk.sync else disk)
        (single.onClosed job.cfg total result)
  | measured (total : Nat) (at_pc : single.pc = .measuring total) :
      Move io job disk single (.measured true) disk (single.onMeasured job.cfg total disk.length)
  | failed (event : SingleEvent) (error : Error) (fault : event.fault = true) (shut : single.hasHandle = false) :
      Move io job disk single event disk (single.fail job.cfg error)
  | slept (at_pc : single.pc = .waiting) : Move io job disk single .slept disk { single with pc := .head }
  | interrupted (shut : single.hasHandle = false) :
      Move io job disk single .interrupted disk { single with pc := .returned (.error .cancelled) }

/-- Each step of a call is one of the listed transitions. -/
theorem step_move (taken : Single.step io job (disk, single) event = some next) :
    Move io job disk single event next.1 next.2 := by
  obtain ⟨after, moved⟩ := next
  change Move io job disk single event after moved
  unfold Single.step at taken
  dsimp only at taken
  split at taken
  · cases taken
    exact .cancelled
  · split at taken <;> rename_i held <;> cases taken
    exact .landed _ _ held
  · split at taken <;> rename_i held <;> cases taken
    exact .lost _ _ _ held
  · rename_i at_pc
    cases taken
    unfold onHead
    split_ifs with cancelled
    · exact .stopped at_pc cancelled
    · exact .began at_pc (Bool.eq_false_iff.mpr cancelled)
  · rename_i at_pc
    cases taken
    exact .looked _ at_pc
  · rename_i at_pc
    cases taken
    exact .failed _ _ rfl (by simp [hasHandle, at_pc])
  · rename_i at_pc
    cases taken
    exact .answered _ _ _ at_pc
  · rename_i at_pc
    split_ifs at taken
    cases taken
    exact .interrupted (by simp [hasHandle, at_pc])
  · rename_i at_pc
    split_ifs at taken with made <;> cases taken
    · exact made ▸ .created _ _ at_pc
    · exact .failed _ _ (by simp [SingleEvent.fault, made]) (by simp [hasHandle, at_pc])
  · rename_i at_pc
    split_ifs at taken with made <;> cases taken
    · exact made ▸ .opened _ at_pc
    · exact .failed _ _ (by simp [SingleEvent.fault, made]) (by simp [hasHandle, at_pc])
  · rename_i at_pc
    cases taken
    exact .chunk _ _ at_pc
  · rename_i at_pc
    split_ifs at taken with empty
    cases taken
    exact .ended _ at_pc (List.isEmpty_iff.mp empty)
  · rename_i at_pc
    cases taken
    exact .broken _ _ _ rfl (by simp [hasHandle, at_pc])
  · rename_i at_pc
    split at taken
    · cases taken
      exact .wrote _ _ rfl at_pc
    · rename_i idle
      cases taken
      exact .passed _ _ rfl idle at_pc
    · cases taken
  · rename_i at_pc
    split at taken
    · cases taken
      exact .torn _ _ _ rfl at_pc
    · cases taken
      exact .broken _ _ _ rfl (by simp [hasHandle, at_pc])
    · cases taken
  · rename_i at_pc
    split_ifs at taken with reports fine <;> cases taken
    · exact fine ▸ .flushed _ at_pc
    · exact .broken _ _ _ (by simp [SingleEvent.fault, fine]) (by simp [hasHandle, at_pc])
  · rename_i at_pc
    split_ifs at taken with fine <;> cases taken
    · exact fine ▸ .synced _ at_pc
    · exact .broken _ _ _ (by simp [SingleEvent.fault, fine]) (by simp [hasHandle, at_pc])
  · rename_i at_pc
    split at taken <;> rename_i settled <;> cases taken
    exact .closed _ _ _ at_pc settled
  · rename_i at_pc
    split_ifs at taken with readable <;> cases taken
    · exact readable ▸ .measured _ at_pc
    · exact .failed _ _ (by simp [SingleEvent.fault, readable]) (by simp [hasHandle, at_pc])
  · rename_i at_pc
    cases taken
    exact .slept at_pc
  · rename_i at_pc
    split_ifs at taken
    cases taken
    exact .interrupted (by simp [hasHandle, at_pc])
  · cases taken

end Single

end FastDownloader
