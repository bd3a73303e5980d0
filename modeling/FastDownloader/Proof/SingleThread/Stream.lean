/-
This file states what a single-thread call knows about the data file while it streams one content into it.
-/

import FastDownloader.Model.SingleThread
import FastDownloader.Proof.Disk.Contents
import FastDownloader.Proof.Worker.Invariant

namespace FastDownloader

open Foundation

/-- The rest of the body goes on at the position of the stream, unless the stream is full. -/
def Stream.Ahead (content : List UInt8) (stream : Stream) : Prop :=
  stream.full = false → stream.body <+: content.drop stream.pos

/-- A chunk that was cut fills the stream. -/
theorem Stream.uncut {stream : Stream} {chunk : List UInt8} (before : stream.full = false)
    (after : ({ stream with pos := stream.pos + (chunk.take (stream.writeLen chunk.length)).length } : Stream).full =
      false) : chunk.take (stream.writeLen chunk.length) = chunk := by
  apply List.take_of_length_le
  unfold writeLen
  unfold full at before after
  cases known : stream.total with
  | none => exact Nat.le_refl _
  | some total =>
      simp only [known, Option.any_some, decide_eq_false_iff_not, Nat.not_le, List.length_take, writeLen] at before after ⊢
      omega

/-- The request in flight asks from this position on, or for the whole resource. -/
def Single.requested (single : Single) : Option (Nat × Bool) :=
  match single.pc with
  | .sent existing resume => some (existing, resume)
  | _ => none

/-- A partial answer carries the content from the asked position on. Any other success carries it from its start. -/
def Single.Served (content : List UInt8) (single : Single) (response : Response) : Prop :=
  ∀ request ∈ single.requested,
    (request.2 = true → response.status = 206 → response.body <+: content.drop request.1) ∧
      (request.2 = false ∨ response.status = 200 → isSuccess response.status = true → response.body <+: content)

instance (content : List UInt8) (single : Single) (response : Response) :
    Decidable (single.Served content response) :=
  inferInstanceAs (Decidable (∀ request ∈ single.requested, _ ∧ _))

namespace Single

variable {Text : Type} {content : List UInt8} {io : FileIo} {job : Job} {disk : Disk Text} {single : Single}

/-- The file and the background write together reach this position. After a failed write the file may be shorter. -/
def Filled (content : List UInt8) (disk : Disk Text) (handle : Handle) (position : Nat) : Prop :=
  match handle with
  | .busy offset bytes =>
      disk.Holds content offset ∧ position = offset + bytes.length ∧ bytes <+: content.drop offset
  | .failed => ∃ reached, disk.Holds content reached
  | .idle | .closed => disk.Holds content position

/-- Each control point fixes how the data file and the response go together. -/
def Aligned (content : List UInt8) (job : Job) (disk : Disk Text) (single : Single) : Prop :=
  match single.pc with
  | .sent existing resume =>
      resume = true → job.info.supportsRange = true ∧ existing = disk.length ∧ 0 < existing ∧
        ∀ total ∈ job.info.size, existing < total
  | .creating _ body => body <+: content
  | .opening stream => disk.Holds content stream.pos ∧ stream.Ahead content
  | .streaming stream | .flushing stream | .syncing stream =>
      Filled content disk single.handle stream.pos ∧ stream.Ahead content
  | .writing stream bytes =>
      Filled content disk single.handle stream.pos ∧ bytes <+: content.drop stream.pos ∧
        ({ stream with pos := stream.pos + bytes.length } : Stream).Ahead content
  | .closing _ _ => ∃ position, Filled content disk single.handle position
  | .measuring _ => ∃ position, disk.Holds content position
  | .returned (.ok ()) => ∃ position, disk.Holds content position
  | _ => True

/-- A handle is open exactly while a response is written to the file. -/
def hasHandle (single : Single) : Bool :=
  match single.pc with
  | .streaming _ | .writing _ _ | .flushing _ | .syncing _ | .closing _ _ => true
  | _ => false

/-- The call streams this content, and its handle agrees with its control point. -/
structure Sound (content : List UInt8) (io : FileIo) (job : Job) (disk : Disk Text) (single : Single) : Prop where
  still : io = .through → single.handle = .idle ∨ single.handle = .closed
  parked : single.hasHandle = false → single.handle.flight = none
  aligned : single.Aligned content job disk

/-- The data file is left alone, truncated, or extended to a longer part of the content. -/
inductive Touched (content : List UInt8) (disk : Disk Text) (single : Single) : SingleEvent → Disk Text → Prop
  | kept (event : SingleEvent) (after : Disk Text) (contents : after.contents = disk.contents)
      (dlstate : after.dlstate = disk.dlstate) : Touched content disk single event after
  | truncated (total : Option Nat) (body : List UInt8) (at_pc : single.pc = .creating total body) :
      Touched content disk single (.created true) disk.create
  | extended (event : SingleEvent) (offset : Nat) (bytes : List UInt8) (holds : disk.Holds content offset)
      (suited : bytes <+: content.drop offset) : Touched content disk single event (disk.write offset bytes)

theorem outcome_iff (single : Single) (result : Except Error Unit) :
    single.outcome = some result ↔ single.pc = .returned result := by
  unfold outcome
  cases single.pc <;> simp

theorem start_sound (content : List UInt8) (io : FileIo) (job : Job) (disk : Disk Text) (cancelled : Bool) :
    (Single.start cancelled).Sound content io job disk :=
  ⟨fun _ => Or.inr rfl, fun _ => rfl, trivial⟩

/-- A background write that ends well leaves the file at the position that was handed over. -/
theorem Filled.land {offset position : Nat} {bytes : List UInt8}
    (filled : Filled content disk (.busy offset bytes) position) :
    Filled content (disk.write offset bytes) .idle position := by
  obtain ⟨holds, rfl, suited⟩ := filled
  exact holds.write suited

theorem Filled.lose {offset position : Nat} {bytes : List UInt8}
    (filled : Filled content disk (.busy offset bytes) position) (kept : Nat) :
    Filled content (disk.write offset (bytes.take kept)) .failed position := by
  obtain ⟨holds, rfl, suited⟩ := filled
  exact ⟨_, holds.write ((List.take_prefix kept bytes).trans suited)⟩

/-- Once nothing is under way, the file holds the first part of the content. -/
theorem Filled.holds {handle : Handle} {position : Nat} (filled : Filled content disk handle position)
    (settled : handle.flight = none) : ∃ reached, disk.Holds content reached := by
  cases handle with
  | busy => cases settled
  | failed => exact filled
  | idle | closed => exact ⟨position, filled⟩

/-- Only the contents of the file matter. -/
theorem Filled.congr {after : Disk Text} {handle : Handle} {position : Nat}
    (filled : Filled content disk handle position) (contents : after.contents = disk.contents) :
    Filled content after handle position := by
  unfold Filled Disk.Holds at *
  rw [contents]
  exact filled

/-- A failed attempt ends the call with an error or waits. -/
theorem fail_sound (still : io = .through → single.handle = .idle ∨ single.handle = .closed)
    (settled : single.handle.flight = none) (cfg : DownloaderConfig) (error : Error) :
    (single.fail cfg error).Sound content io job disk := by
  unfold fail
  split
  · exact ⟨still, fun _ => settled, trivial⟩
  · dsimp only
    split
    · exact ⟨still, fun _ => settled, trivial⟩
    · exact ⟨still, fun _ => settled, trivial⟩

end Single

end FastDownloader
