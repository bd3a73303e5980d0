/-
This file proves that both paths write each body from the position that they asked for, and when its bytes belong there.
-/

import FastDownloader.Proof.MultiThread.Restart
import FastDownloader.Proof.SingleThread.Attempt

namespace FastDownloader

open Foundation

variable {Text Process Label : Type} {right : Nat → UInt8 → Prop} {disk after : Disk Text}

/-- Every byte that reached the file between these moments is right at its offset. -/
def Disk.Written (right : Nat → UInt8 → Prop) (disk after : Disk Text) : Prop :=
  ∀ position, (disk.cell position).writes < (after.cell position).writes → right position (after.cell position).byte

/-- All bytes that a step writes are right at their offsets. -/
def PlacesRight (step : Step (Disk Text × Process) Label) (right : Nat → UInt8 → Prop) (state : Disk Text × Process)
    (label : Label) : Prop :=
  ∀ next ∈ step state label, state.1.Written right next.1

namespace Disk

theorem written_of_writes (same : ∀ position, (after.cell position).writes ≤ (disk.cell position).writes) :
    disk.Written right after := by
  intro position more
  exact absurd (same position) (by omega)

theorem written_refl (disk : Disk Text) : disk.Written right disk := written_of_writes fun _ => Nat.le_refl _

theorem written_sync (disk : Disk Text) : disk.Written right disk.sync :=
  written_of_writes fun position => (disk.writes_sync position).le

theorem written_openCreate (disk : Disk Text) : disk.Written right disk.openCreate :=
  written_of_writes fun position => by rw [cell_openCreate]

theorem written_create (disk : Disk Text) : disk.Written right disk.create :=
  written_of_writes fun _ => Nat.zero_le _

theorem written_setLen (disk : Disk Text) (length : Nat) : disk.Written right (disk.setLen length) := by
  apply written_of_writes
  intro position
  by_cases below : position < length
  · rw [cell_setLen below]
  · unfold cell setLen
    cases disk.data with
    | none => exact Nat.le_refl _
    | some file =>
        simp only [Option.map_some, Option.getD_some]
        rw [List.getElem?_eq_none (by rw [length_resize]; omega)]
        exact Nat.zero_le _

/-- A write of bytes that belong to its offset is right. -/
theorem written_write {offset : Nat} {bytes : List UInt8} (suited : Matches right offset bytes) :
    disk.Written right (disk.write offset bytes) := by
  intro position more
  by_cases covered : Covers offset bytes position
  · cases present : disk.data with
    | none =>
        have unchanged : disk.write offset bytes = disk := by
          obtain ⟨data, dlstate⟩ := disk
          obtain rfl : data = none := present
          rfl
        rw [unchanged] at more
        exact absurd more (Nat.lt_irrefl _)
    | some file =>
        obtain ⟨byte, right, replaced⟩ := cell_write_matches (by rw [present]; rfl) suited covered
        rw [replaced]
        exact right
  · rw [cell_write_outside covered] at more
    exact absurd more (Nat.lt_irrefl _)

end Disk

namespace Multi

variable {io : FileIo} {job : Job} {multi next : Multi} {act : Act}

/-- All bytes that are under way belong to their offsets. -/
structure Bearing (right : Nat → UInt8 → Prop) (job : Job) (multi : Multi) : Prop where
  controlled : Controlled right job multi
  carried : ∀ worker ∈ multi.workers, ∀ placed ∈ worker.handle.flight, Matches right placed.1 placed.2
  dropped : ∀ placed ∈ multi.orphans, Matches right placed.1 placed.2

theorem begin_bearing {ranges : List WorkerRange} (unbegun : Unbegun job multi) (cover : ExactCover job.fileSize ranges)
    (nonempty : ranges ≠ []) : Bearing right job (multi.begin ranges) where
  controlled := begin_controlled cover nonempty (by rw [unbegun.saver]; rfl)
  carried worker member placed held := by
    obtain ⟨range, _, rfl⟩ := List.mem_map.mp member
    cases held
  dropped placed member := by
    rw [Multi.begin, unbegun.orphans] at member
    cases member

/-- A worker step puts only such bytes under way, and it writes only such bytes. -/
theorem Bearing.worker {worker moved : Worker} {event : WorkerEvent} {effect : Effect}
    (bearing : Bearing right job multi) (member : worker ∈ multi.workers)
    (facts : worker.StepFacts right io event moved effect) (disk : Disk Text) (index : Nat) :
    (∀ placed ∈ moved.handle.flight, Matches right placed.1 placed.2) ∧
      (∀ placed ∈ (applyEffect disk { multi with workers := multi.workers.set index moved } effect).2.orphans,
        Matches right placed.1 placed.2) ∧
      disk.Written right (applyEffect disk { multi with workers := multi.workers.set index moved } effect).1 := by
  have still : moved.handle.flight = worker.handle.flight →
      ∀ placed ∈ moved.handle.flight, Matches right placed.1 placed.2 := by
    intro same
    rw [same]
    exact bearing.carried worker member
  cases facts.moved with
  | control rests flight => exact ⟨still flight, bearing.dropped, disk.written_refl⟩
  | stored _ _ _ _ flight | counted _ _ _ flight | marked _ _ _ _ _ _ flight =>
      exact ⟨still flight, bearing.dropped, disk.written_refl⟩
  | wrote bytes mode accepts flight =>
      exact ⟨still flight, bearing.dropped, Disk.written_write accepts.suited⟩
  | passed bytes mode accepts idle flight =>
      refine ⟨fun placed held => ?_, bearing.dropped, disk.written_refl⟩
      rw [flight] at held
      obtain rfl := Option.some.inj held
      exact accepts.suited
  | torn bytes kept mode failed suited bounded rests flight =>
      refine ⟨fun placed held => ?_, bearing.dropped, Disk.written_write suited⟩
      rw [flight] at held
      cases held
  | dropped offset bytes rests carried flight =>
      refine ⟨fun placed held => ?_, fun placed listed => ?_, disk.written_refl⟩
      · rw [flight] at held
        cases held
      · rcases List.mem_cons.mp listed with rfl | earlier
        · exact bearing.carried worker member _ carried
        · exact bearing.dropped placed earlier

theorem MainMove.written {event : MainEvent} {phase : Phase} (move : MainMove job disk multi event after phase) :
    disk.Written right after := by
  cases move with
  | created => exact disk.written_openCreate
  | resized => exact disk.written_setLen _
  | settled ok | finalSync ok =>
      cases ok with
      | false => exact disk.written_refl
      | true => exact disk.written_sync
  | discarded ok | deleted ok => cases ok <;> exact Disk.written_of_writes fun _ => Nat.le_refl _
  | _ => exact disk.written_refl

variable [SerdeJson Text]

/-- Every transition keeps this, and it writes only bytes that belong to their offsets. -/
theorem Bearing.change (bearing : Bearing right job multi)
    (change : Change right io job disk multi act after next) :
    Bearing right job next ∧ disk.Written right after := by
  have controlled := bearing.controlled.change change
  cases change with
  | cancelled => exact ⟨⟨controlled, bearing.carried, bearing.dropped⟩, disk.written_refl⟩
  | main event _ phase move => exact ⟨⟨controlled, bearing.carried, bearing.dropped⟩, move.written⟩
  | saver event stopping moved effect =>
      refine ⟨⟨controlled, bearing.carried, bearing.dropped⟩, ?_⟩
      cases effect with
      | none => exact disk.written_refl
      | sync => exact disk.written_sync
      | save => exact Disk.written_of_writes fun _ => Nat.le_refl _
  | worker index event worker moved effect running present facts =>
      obtain ⟨carried, dropped, written⟩ := bearing.worker (List.mem_of_getElem? present) facts disk index
      refine ⟨⟨controlled, ?_, dropped⟩, written⟩
      have workers : (applyEffect disk { multi with workers := multi.workers.set index moved } effect).2.workers =
          multi.workers.set index moved := by
        cases effect <;> rfl
      rw [workers]
      exact forall_mem_set bearing.carried carried
  | landed index worker offset bytes present carried =>
      have suited := bearing.carried worker (List.mem_of_getElem? present) (offset, bytes) (by rw [carried]; rfl)
      exact ⟨⟨controlled, forall_mem_set bearing.carried nofun, bearing.dropped⟩, Disk.written_write suited⟩
  | lost index kept worker offset bytes present carried =>
      have suited := bearing.carried worker (List.mem_of_getElem? present) (offset, bytes) (by rw [carried]; rfl)
      exact ⟨⟨controlled, forall_mem_set bearing.carried nofun, bearing.dropped⟩,
        Disk.written_write (suited.take kept)⟩
  | orphanLanded index offset bytes present =>
      have suited := bearing.dropped _ (List.mem_of_getElem? present)
      exact ⟨⟨controlled, bearing.carried, fun placed member => bearing.dropped placed (List.mem_of_mem_eraseIdx member)⟩,
        Disk.written_write suited⟩
  | orphanLost index kept offset bytes present =>
      have suited := bearing.dropped _ (List.mem_of_getElem? present)
      exact ⟨⟨controlled, bearing.carried, fun placed member => bearing.dropped placed (List.mem_of_mem_eraseIdx member)⟩,
        Disk.written_write (suited.take kept)⟩

/-- When each partial body belongs to the position that its worker asked for, each step of the call writes only right
bytes. -/
theorem run_places {acts : List Act} {last : Disk Text × Multi}
    (run : Run (Multi.step io job) (fun state => state.2.Answered right) (disk, Multi.start job) acts last) :
    Admitted (Multi.step io job) (PlacesRight (Multi.step io job) right) (disk, Multi.start job) acts := by
  apply run.admitted_of (fun state => Unbegun job state.2 ∨ Bearing right job state.2) _
    (Or.inl (start_unbegun job))
  rintro ⟨disk, multi⟩ act next held answered taken
  have passes : (Unbegun job next.2 ∨ Bearing right job next.2) ∧ disk.Written right next.1 := by
    rcases held with unbegun | bearing
    · rcases unbegun.step_cases taken with ⟨same, still⟩ | ⟨readable, ranges, -, chosen, rfl⟩
      · refine ⟨Or.inl still, ?_⟩
        rw [same]
        exact disk.written_refl
      · obtain ⟨cover, nonempty⟩ := chooseRanges_cover chosen
        exact ⟨Or.inr (begin_bearing unbegun cover nonempty), disk.written_refl⟩
    · obtain ⟨kept, written⟩ := bearing.change (bearing.controlled.step_change answered taken)
      exact ⟨Or.inr kept, written⟩
  refine ⟨passes.1, fun other found => ?_⟩
  obtain rfl := Option.some.inj (taken.symm.trans found)
  exact passes.2

end Multi

namespace Single

variable {io : FileIo} {job : Job} {single : Single} {stream : Stream} {bytes : List UInt8}

/-- A partial body belongs to the asked position, and a whole one to the start of the file. -/
def Answered (right : Nat → UInt8 → Prop) (single : Single) : SingleEvent → Prop
  | .reply (some response) => ∀ request ∈ single.requested,
      (response.status = 206 → Matches right (if request.2 then request.1 else 0) response.body) ∧
        (response.status = 200 → Matches right 0 response.body)
  | _ => True

/-- The rest of the body belongs to the position of the stream, unless the stream is full. -/
def Ahead (right : Nat → UInt8 → Prop) (stream : Stream) : Prop :=
  stream.full = false → Matches right stream.pos stream.body

/-- All bytes that the call holds belong to their offsets. -/
structure Bearing (right : Nat → UInt8 → Prop) (single : Single) : Prop where
  carried : ∀ placed ∈ single.handle.flight, Matches right placed.1 placed.2
  held : match single.pc with
    | .creating _ body => Matches right 0 body
    | .opening stream | .streaming stream | .flushing stream | .syncing stream => Ahead right stream
    | .writing stream bytes => Matches right stream.pos bytes ∧
        Ahead right { stream with pos := stream.pos + bytes.length }
    | _ => True

theorem fail_bearing (carried : ∀ placed ∈ single.handle.flight, Matches right placed.1 placed.2)
    (cfg : DownloaderConfig) (error : Error) : Bearing right (single.fail cfg error) := by
  unfold fail
  split
  · exact ⟨carried, trivial⟩
  · dsimp only
    split
    · exact ⟨carried, trivial⟩
    · exact ⟨carried, trivial⟩

theorem onStat_bearing (carried : ∀ placed ∈ single.handle.flight, Matches right placed.1 placed.2)
    (job : Job) (existing : Nat) : Bearing right (single.onStat job existing) := by
  unfold onStat
  split_ifs
  · exact ⟨carried, trivial⟩
  · exact ⟨carried, trivial⟩

theorem onReply_bearing (bearing : Bearing right single) {existing : Nat} {resume : Bool} {response : Response}
    (partly : response.status = 206 → Matches right (if resume then existing else 0) response.body)
    (whole : response.status = 200 → Matches right 0 response.body) :
    Bearing right (single.onReply job existing resume response) := by
  unfold onReply
  split
  · rename_i status
    exact ⟨bearing.carried, fun _ => partly status⟩
  · rename_i status
    exact ⟨bearing.carried, whole status⟩
  · rename_i status
    exact ⟨bearing.carried, partly status⟩
  · split_ifs
    · exact ⟨bearing.carried, trivial⟩
    · exact fail_bearing bearing.carried _ _

/-- A chunk that was cut fills the stream, and the rest of the body goes on behind a whole chunk. -/
theorem onChunk_bearing (bearing : Bearing right single) (ahead : Ahead right stream) (size : Nat) :
    Bearing right (single.onChunk stream size) := by
  unfold onChunk
  dsimp only
  split_ifs with stopped empty full
  · exact ⟨bearing.carried, trivial⟩
  · refine ⟨bearing.carried, fun more => ?_⟩
    have rest := (ahead more).rest size
    rwa [List.isEmpty_iff.mp empty] at rest
  · exact ⟨bearing.carried, trivial⟩
  · have body := ahead (Bool.eq_false_iff.mpr full)
    refine ⟨bearing.carried, (body.take size).take _, fun more => ?_⟩
    have uncut := Stream.uncut (Bool.eq_false_iff.mpr full) more
    dsimp only
    rw [uncut]
    exact body.rest size

theorem onWrote_bearing (carried : ∀ placed ∈ single.handle.flight, Matches right placed.1 placed.2)
    (cfg : DownloaderConfig) (ahead : Ahead right { stream with pos := stream.pos + bytes.length }) :
    Bearing right (single.onWrote cfg stream bytes) := by
  unfold onWrote
  dsimp only
  split_ifs
  · exact ⟨carried, ahead⟩
  · exact ⟨carried, ahead⟩

theorem onMeasured_bearing (carried : ∀ placed ∈ single.handle.flight, Matches right placed.1 placed.2)
    (cfg : DownloaderConfig) (total onDisk : Nat) : Bearing right (single.onMeasured cfg total onDisk) := by
  unfold onMeasured
  split_ifs
  · exact fail_bearing carried cfg _
  · exact ⟨carried, trivial⟩

theorem onClosed_bearing (single : Single) (cfg : DownloaderConfig) (total : Option Nat) (result : Except Error Unit) :
    Bearing right (single.onClosed cfg total result) := by
  have free : ∀ placed ∈ ({ single with handle := .closed } : Single).handle.flight,
      Matches right placed.1 placed.2 := nofun
  unfold onClosed
  dsimp only
  split
  · exact fail_bearing free cfg _
  · exact ⟨free, trivial⟩
  · exact ⟨free, trivial⟩

/-- Each step keeps this, and it writes only bytes that belong to their offsets. -/
theorem Bearing.step (bearing : Bearing right single) {event : SingleEvent}
    (answered : single.Answered right event) {next : Disk Text × Single}
    (taken : Single.step io job (disk, single) event = some next) :
    Bearing right next.2 ∧ disk.Written right next.1 := by
  have carried := bearing.carried
  have held := bearing.held
  have move := step_move taken
  generalize next.1 = after at move ⊢
  generalize next.2 = moved at move ⊢
  cases move with
  | cancelled => exact ⟨⟨carried, held⟩, disk.written_refl⟩
  | landed offset bytes busy =>
      have suited := carried (offset, bytes) (by rw [busy]; rfl)
      exact ⟨⟨nofun, held⟩, Disk.written_write suited⟩
  | lost kept offset bytes busy =>
      have suited := carried (offset, bytes) (by rw [busy]; rfl)
      exact ⟨⟨nofun, held⟩, Disk.written_write (suited.take kept)⟩
  | stopped | began => exact ⟨⟨carried, trivial⟩, disk.written_refl⟩
  | looked readable => exact ⟨onStat_bearing carried job _, disk.written_refl⟩
  | answered existing resume response at_pc =>
      obtain ⟨partly, whole⟩ := answered (existing, resume) (by rw [requested, at_pc, Option.mem_def])
      exact ⟨onReply_bearing bearing partly whole, disk.written_refl⟩
  | created total body at_pc =>
      rw [at_pc] at held
      exact ⟨⟨carried, fun _ => held⟩, disk.written_create⟩
  | opened stream at_pc =>
      rw [at_pc] at held
      exact ⟨⟨nofun, held⟩, disk.written_openCreate⟩
  | chunk stream size at_pc =>
      rw [at_pc] at held
      exact ⟨onChunk_bearing bearing held size, disk.written_refl⟩
  | wrote stream bytes mode at_pc =>
      rw [at_pc] at held
      exact ⟨onWrote_bearing carried _ held.2, Disk.written_write held.1⟩
  | passed stream bytes mode idle at_pc =>
      rw [at_pc] at held
      refine ⟨onWrote_bearing (fun placed busy => ?_) _ held.2, disk.written_refl⟩
      obtain rfl := Option.some.inj busy
      exact held.1
  | torn stream bytes kept mode at_pc =>
      rw [at_pc] at held
      exact ⟨⟨carried, trivial⟩, Disk.written_write (held.1.take kept)⟩
  | flushed stream at_pc =>
      rw [at_pc] at held
      refine ⟨?_, disk.written_refl⟩
      unfold onFlushed
      split_ifs
      · exact ⟨carried, held⟩
      · exact ⟨carried, held⟩
  | synced stream at_pc =>
      rw [at_pc] at held
      exact ⟨⟨carried, held⟩, disk.written_sync⟩
  | closed total result synced =>
      refine ⟨onClosed_bearing _ _ _ _, ?_⟩
      cases synced with
      | true => exact disk.written_sync
      | false => exact disk.written_refl
  | measured total => exact ⟨onMeasured_bearing carried job.cfg _ _, disk.written_refl⟩
  | failed _ error => exact ⟨fail_bearing carried job.cfg error, disk.written_refl⟩
  | ended | broken | slept | interrupted => exact ⟨⟨carried, trivial⟩, disk.written_refl⟩

theorem run_places {cancelled : Bool} {events : List SingleEvent} {last : Disk Text × Single}
    (run : Run (Single.step io job) (fun state => state.2.Answered right) (disk, Single.start cancelled) events last) :
    Admitted (Single.step io job) (PlacesRight (Single.step io job) right) (disk, Single.start cancelled) events := by
  apply run.admitted_of (fun state => Bearing right state.2) _ ⟨nofun, trivial⟩
  rintro ⟨disk, single⟩ event next held answered taken
  obtain ⟨kept, written⟩ := held.step answered taken
  refine ⟨kept, fun other found => ?_⟩
  obtain rfl := Option.some.inj (taken.symm.trans found)
  exact written

end Single

variable {content : List UInt8}

/-- This is the byte of the content at the offset. -/
def ByteAt (content : List UInt8) (position : Nat) (byte : UInt8) : Prop := content[position]? = some byte

theorem matches_of_prefix {bytes : List UInt8} {position : Nat} (suited : bytes <+: content.drop position) :
    Matches (ByteAt content) position bytes := by
  intro index byte present
  obtain ⟨rest, whole⟩ := suited
  have inside := (List.getElem?_eq_some_iff.mp present).1
  have found : (content.drop position)[index]? = some byte := by
    rw [← whole, List.getElem?_append_left inside, present]
  rwa [List.getElem?_drop] at found

/-- The data of an answer begins here: the header names this part of the content, and the body is from there. -/
def Response.Begins (content : List UInt8) (response : Response) (first : Nat) : Prop :=
  ∃ last, last < content.length ∧
    response.contentRange = some s!"bytes {first}-{last}/{content.length}" ∧
      response.body <+: (content.drop first).take (last + 1 - first)

/-- A truthful answer 206 begins where the relation allows it for the asked position. -/
def Response.Truthful (content : List UInt8) (allowed : Nat → Nat → Prop) (asked : Nat) (response : Response) : Prop :=
  response.status = 206 → ∃ first, first < content.length ∧ allowed asked first ∧ response.Begins content first

theorem Response.Truthful.suited {asked : Nat} {response : Response} (truthful : response.Truthful content Eq asked)
    (partly : response.status = 206) : Matches (ByteAt content) asked response.body := by
  obtain ⟨first, _, rfl, last, _, _, body⟩ := truthful partly
  exact matches_of_prefix (body.trans (List.take_prefix _ _))

/-- All answers to the workers are truthful. -/
def Multi.Told (content : List UInt8) (allowed : Nat → Nat → Prop) (state : Disk Text × Multi) : Act → Prop
  | .worker index (.reply (some response)) => ∀ worker ∈ state.2.workers[index]?, ∀ asked ∈ worker.requested,
      response.Truthful content allowed asked
  | _ => True

/-- All answers to the call are truthful. A body of status 200 is the content from its start. -/
def Single.Told (content : List UInt8) (allowed : Nat → Nat → Prop) (state : Disk Text × Single) : SingleEvent → Prop
  | .reply (some response) => ∀ request ∈ state.2.requested,
      response.Truthful content allowed (if request.2 then request.1 else 0) ∧
        (response.status = 200 → response.body <+: content)
  | _ => True

theorem Multi.Told.answered {state : Disk Text × Multi} {act : Act} (told : Multi.Told content Eq state act) :
    state.2.Answered (ByteAt content) act := by
  unfold Multi.Answered
  split
  · rename_i index event
    intro worker present
    unfold Worker.Answered
    split
    · intro asked sent partly
      exact (told worker present asked sent).suited partly
    · trivial
  · trivial

theorem Single.Told.answered {state : Disk Text × Single} {event : SingleEvent}
    (told : Single.Told content Eq state event) : state.2.Answered (ByteAt content) event := by
  unfold Single.Answered
  split
  · intro request sent
    obtain ⟨truthful, whole⟩ := told request sent
    refine ⟨truthful.suited, fun status => matches_of_prefix ?_⟩
    rw [List.drop_zero]
    exact whole status
  · trivial

/-- On both paths, when each truthful answer 206 begins at the position that was asked for, each byte that the call
writes is the byte of the content at its offset. -/
theorem written_right [SerdeJson Text] (content : List UInt8) (io : FileIo) (job : Job) (disk : Disk Text) :
    (∀ acts last, Run (Multi.step io job) (Multi.Told content Eq) (disk, Multi.start job) acts last →
      Admitted (Multi.step io job) (PlacesRight (Multi.step io job) (ByteAt content)) (disk, Multi.start job) acts) ∧
    (∀ cancelled events last,
      Run (Single.step io job) (Single.Told content Eq) (disk, Single.start cancelled) events last →
        Admitted (Single.step io job) (PlacesRight (Single.step io job) (ByteAt content))
          (disk, Single.start cancelled) events) := by
  constructor
  · intro acts last run
    exact Multi.run_places (run.mono fun _ _ told => told.answered)
  · intro cancelled events last run
    exact Single.run_places (run.mono fun _ _ told => told.answered)

instance (content : List UInt8) (position : Nat) (byte : UInt8) : Decidable (ByteAt content position byte) :=
  inferInstanceAs (Decidable (_ = _))

instance (content : List UInt8) (response : Response) (first : Nat) : Decidable (response.Begins content first) :=
  inferInstanceAs (Decidable (∃ last, last < content.length ∧ _ ∧ _))

instance (content : List UInt8) (allowed : Nat → Nat → Prop) [DecidableRel allowed] (asked : Nat)
    (response : Response) : Decidable (response.Truthful content allowed asked) :=
  inferInstanceAs (Decidable (_ → ∃ first, first < content.length ∧ _ ∧ _))

instance (content : List UInt8) (allowed : Nat → Nat → Prop) [DecidableRel allowed] (state : Disk Text × Multi)
    (act : Act) : Decidable (Multi.Told content allowed state act) := by
  unfold Multi.Told
  split <;> infer_instance

instance (content : List UInt8) (allowed : Nat → Nat → Prop) [DecidableRel allowed] (state : Disk Text × Single)
    (event : SingleEvent) : Decidable (Single.Told content allowed state event) := by
  unfold Single.Told
  split <;> infer_instance

/-- One worker loads two bytes. -/
def pairJob : Job := ⟨⟨"u", some 2, fits_two, true, none, none, none⟩, 1, {}⟩

/-- One call begins without a file, and the other one finds the first byte. -/
def freshPair : Disk DownloadState × Multi := (⟨none, none⟩, Multi.start pairJob)

def startedPair : Disk DownloadState × Single := (⟨some [⟨7, 1, false⟩], none⟩, Single.start false)

/-- The worker asks from the start of the file. -/
def workerActs (response : Response) : List Act :=
  [.main (.load true), .main (.created true), .main (.resized true), .main (.synced true), .worker 0 .check,
    .worker 0 (.reply (some response)), .worker 0 (.opened true), .worker 0 (.chunk 2)]

/-- The call asks for the second byte. -/
def resumeEvents (response : Response) : List SingleEvent :=
  [.check, .stat true, .reply (some response), .opened true, .chunk 2]

def workerRun (acts : List Act) : Option (Disk DownloadState × Multi) :=
  replay (Multi.step .through pairJob) freshPair acts

def resumeRun (events : List SingleEvent) : Option (Disk DownloadState × Single) :=
  replay (Single.step .through pairJob) startedPair events

/-- Both calls get what they ask for, and they write it. -/
theorem written_right_asked :
    Admitted (Multi.step .through pairJob) (PlacesRight (Multi.step .through pairJob) (ByteAt [7, 8])) freshPair
        (workerActs ⟨206, some "bytes 0-1/2", none, [7, 8]⟩ ++ [.worker 0 .wrote]) ∧
      Admitted (Single.step .through pairJob) (PlacesRight (Single.step .through pairJob) (ByteAt [7, 8])) startedPair
        (resumeEvents ⟨206, some "bytes 1-1/2", none, [8]⟩ ++ [.wrote]) := by
  have worker : Run (Multi.step .through pairJob) (Multi.Told [7, 8] Eq) freshPair
      (workerActs ⟨206, some "bytes 0-1/2", none, [7, 8]⟩ ++ [.worker 0 .wrote])
      ((workerRun (workerActs ⟨206, some "bytes 0-1/2", none, [7, 8]⟩ ++ [.worker 0 .wrote])).get rfl) :=
    run_of_replay (by decide +kernel) (Option.some_get _).symm
  have resumed : Run (Single.step .through pairJob) (Single.Told [7, 8] Eq) startedPair
      (resumeEvents ⟨206, some "bytes 1-1/2", none, [8]⟩ ++ [.wrote])
      ((resumeRun (resumeEvents ⟨206, some "bytes 1-1/2", none, [8]⟩ ++ [.wrote])).get rfl) :=
    run_of_replay (by decide +kernel) (Option.some_get _).symm
  exact ⟨(written_right [7, 8] .through pairJob _).1 _ _ worker,
    (written_right [7, 8] .through pairJob _).2 _ _ _ resumed⟩

/-- Neither path looks where an answer begins. The worker writes the second byte at the offset 0, and the resumed call
writes the first byte at the offset 1. -/
theorem written_not_right :
    (¬ ∀ acts last, Run (Multi.step .through pairJob) (Multi.Told [7, 8] fun _ _ => True) freshPair acts last →
      Admitted (Multi.step .through pairJob) (PlacesRight (Multi.step .through pairJob) (ByteAt [7, 8])) freshPair acts) ∧
    ¬ ∀ events last, Run (Single.step .through pairJob) (Single.Told [7, 8] fun _ _ => True) startedPair events last →
      Admitted (Single.step .through pairJob) (PlacesRight (Single.step .through pairJob) (ByteAt [7, 8])) startedPair
        events := by
  constructor
  · intro always
    have begun : Run (Multi.step .through pairJob) (Multi.Told [7, 8] fun _ _ => True) freshPair
        (workerActs ⟨206, some "bytes 1-1/2", none, [8]⟩)
        ((workerRun (workerActs ⟨206, some "bytes 1-1/2", none, [8]⟩)).get rfl) :=
      run_of_replay (by decide +kernel) (Option.some_get _).symm
    have whole : Run (Multi.step .through pairJob) (Multi.Told [7, 8] fun _ _ => True) freshPair
        (workerActs ⟨206, some "bytes 1-1/2", none, [8]⟩ ++ [.worker 0 .wrote])
        ((workerRun (workerActs ⟨206, some "bytes 1-1/2", none, [8]⟩ ++ [.worker 0 .wrote])).get rfl) :=
      run_of_replay (by decide +kernel) (Option.some_get _).symm
    have byte := (begun.admitted_rest (always _ _ whole)).1 _ rfl 0 (by decide +kernel)
    revert byte
    decide +kernel
  · intro always
    have begun : Run (Single.step .through pairJob) (Single.Told [7, 8] fun _ _ => True) startedPair
        (resumeEvents ⟨206, some "bytes 0-1/2", none, [7, 8]⟩)
        ((resumeRun (resumeEvents ⟨206, some "bytes 0-1/2", none, [7, 8]⟩)).get rfl) :=
      run_of_replay (by decide +kernel) (Option.some_get _).symm
    have whole : Run (Single.step .through pairJob) (Single.Told [7, 8] fun _ _ => True) startedPair
        (resumeEvents ⟨206, some "bytes 0-1/2", none, [7, 8]⟩ ++ [.wrote])
        ((resumeRun (resumeEvents ⟨206, some "bytes 0-1/2", none, [7, 8]⟩ ++ [.wrote])).get rfl) :=
      run_of_replay (by decide +kernel) (Option.some_get _).symm
    have byte := (begun.admitted_rest (always _ _ whole)).1 _ rfl 1 (by decide +kernel)
    revert byte
    decide +kernel

end FastDownloader
