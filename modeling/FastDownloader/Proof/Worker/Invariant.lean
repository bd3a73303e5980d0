/-
This file states what one worker knows about its positions and what one of its steps can do.
-/

import FastDownloader.Model.Worker

namespace FastDownloader

/-- Each byte is right for the offset that it would be written to. -/
def Matches (right : Nat → UInt8 → Prop) (pos : Nat) (bytes : List UInt8) : Prop :=
  ∀ index byte, bytes[index]? = some byte → right (pos + index) byte

instance (right : Nat → UInt8 → Prop) [∀ position byte, Decidable (right position byte)] (pos : Nat)
    (bytes : List UInt8) : Decidable (Matches right pos bytes) :=
  decidable_of_iff (∀ index : Fin bytes.length, right (pos + index) bytes[index]) (by
    constructor
    · intro suited index byte present
      obtain ⟨inside, rfl⟩ := List.getElem?_eq_some_iff.mp present
      exact suited ⟨index, inside⟩
    · exact fun suited index => suited index _ (List.getElem?_eq_getElem index.2))

namespace Matches

variable {right : Nat → UInt8 → Prop} {pos : Nat} {bytes : List UInt8}

theorem take (right_bytes : Matches right pos bytes) (count : Nat) : Matches right pos (bytes.take count) := by
  intro index byte present
  rw [List.getElem?_take] at present
  split_ifs at present
  exact right_bytes index byte present

theorem drop (right_bytes : Matches right pos bytes) (count : Nat) :
    Matches right (pos + count) (bytes.drop count) := by
  intro index byte present
  rw [List.getElem?_drop] at present
  have := right_bytes (count + index) byte present
  rwa [← Nat.add_assoc] at this

/-- The rest of a body goes on where a chunk of it ends. -/
theorem rest (right_bytes : Matches right pos bytes) (size : Nat) :
    Matches right (pos + (bytes.take size).length) (bytes.drop size) := by
  by_cases short : size ≤ bytes.length
  · rw [List.length_take, Nat.min_eq_left short]
    exact right_bytes.drop size
  · intro index byte present
    rw [List.drop_eq_nil_of_le (by omega)] at present
    simp at present

end Matches

/-- The background write that a handle carries. -/
def Handle.flight : Handle → Option (Nat × List UInt8)
  | .busy offset bytes => some (offset, bytes)
  | _ => none

/-- The number of background writes that a handle carries. -/
def Handle.flights (handle : Handle) : Nat := if handle.flight.isSome then 1 else 0

namespace Worker

/-- These bytes are written but not yet added to the shared counter. -/
def uncounted (worker : Worker) : Nat :=
  match worker.pc with
  | .storing _ written => written
  | .counting _ written => written
  | _ => 0

/-- Each control point fixes how the local position, the shared position and the written bytes relate.
Only an answer 416 moves the shared position past the written bytes, and then it is the end. -/
def Aligned (right : Nat → UInt8 → Prop) (worker : Worker) : Prop :=
  match worker.pc with
  | .skipped => worker.handed = worker.current ∧ worker.stop ≤ worker.start
  | .head => worker.handed = worker.current ∨ worker.current = worker.stop
  | .done _ => worker.handed = worker.current ∨ worker.current = worker.stop
  | .sent pos => pos = worker.current ∧ worker.handed = worker.current ∧ pos < worker.stop
  | .opening pos body =>
      pos = worker.current ∧ worker.handed = worker.current ∧ pos < worker.stop ∧ Matches right pos body
  | .streaming segment =>
      segment.pos = worker.current ∧ worker.handed = worker.current ∧ segment.pos < worker.stop ∧
        Matches right segment.pos segment.body
  | .writing segment bytes =>
      segment.pos = worker.current ∧ worker.handed = worker.current ∧ bytes ≠ [] ∧
        segment.pos + bytes.length ≤ worker.stop ∧ Matches right segment.pos bytes ∧
        (segment.pos + bytes.length < worker.stop → Matches right (segment.pos + bytes.length) segment.body)
  | .storing segment written =>
      worker.handed = segment.pos ∧ worker.current + written = segment.pos ∧
        (segment.pos < worker.stop → Matches right segment.pos segment.body)
  | .counting segment written =>
      worker.handed = segment.pos ∧ worker.current = segment.pos ∧ worker.start + written ≤ segment.pos ∧
        (segment.pos < worker.stop → Matches right segment.pos segment.body)
  | .flushing segment =>
      worker.handed = segment.pos ∧ worker.current = segment.pos ∧
        (segment.pos < worker.stop → Matches right segment.pos segment.body)
  | .finishing => worker.handed = worker.current
  | .cancelling => worker.handed = worker.current
  | .waiting => worker.handed = worker.current

/-- The positions of a worker stay inside its range and agree with its control point. -/
structure Sound (right : Nat → UInt8 → Prop) (worker : Worker) : Prop where
  start_le : worker.start ≤ worker.current
  current_le : worker.current ≤ worker.stop
  start_le_handed : worker.start ≤ worker.handed
  handed_le : worker.handed ≤ worker.stop
  aligned : worker.Aligned right

/-- A new worker has handed over exactly the bytes below its position. -/
theorem spawn_sound {right : Nat → UInt8 → Prop} {range : WorkerRange}
    (within : range.start ≤ range.current ∧ range.current ≤ range.stop) : (spawn range).Sound right where
  start_le := within.1
  current_le := within.2
  start_le_handed := within.1
  handed_le := within.2
  aligned := by
    unfold Aligned spawn
    split_ifs with empty
    · exact ⟨rfl, empty⟩
    · exact Or.inl rfl

@[simp] theorem spawn_uncounted (range : WorkerRange) : (spawn range).uncounted = 0 := by
  unfold uncounted spawn
  split_ifs <;> rfl

variable {right : Nat → UInt8 → Prop} {cfg : DownloaderConfig} {worker next : Worker}

section fail

variable (cfg worker) (error : Error)

@[simp] theorem fail_start : (worker.fail cfg error).start = worker.start := by unfold fail; dsimp only; split <;> rfl
@[simp] theorem fail_stop : (worker.fail cfg error).stop = worker.stop := by unfold fail; dsimp only; split <;> rfl
@[simp] theorem fail_current : (worker.fail cfg error).current = worker.current := by
  unfold fail; dsimp only; split <;> rfl
@[simp] theorem fail_handed : (worker.fail cfg error).handed = worker.handed := by
  unfold fail; dsimp only; split <;> rfl
@[simp] theorem fail_handle : (worker.fail cfg error).handle = worker.handle := by
  unfold fail; dsimp only; split <;> rfl
@[simp] theorem fail_uncounted : (worker.fail cfg error).uncounted = 0 := by
  unfold fail; dsimp only; split <;> rfl

end fail

/-- A failed segment leaves the positions level. -/
theorem fail_sound (sound : worker.Sound right) (level : worker.handed = worker.current) (error : Error) :
    (worker.fail cfg error).Sound right where
  start_le := by simpa using sound.start_le
  current_le := by simpa using sound.current_le
  start_le_handed := by simpa using sound.start_le_handed
  handed_le := by simpa using sound.handed_le
  aligned := by
    unfold fail
    dsimp only
    split
    · exact Or.inl level
    · exact level

/-- A dropped handle either carries no write or leaves its write behind. -/
theorem release_cases (worker : Worker) :
    (worker.handle.flight = none ∧ worker.release = ({ worker with handle := .closed }, .none)) ∨
      ∃ offset bytes, worker.handle.flight = some (offset, bytes) ∧
        worker.release = ({ worker with handle := .closed }, .orphan offset bytes) := by
  cases held : worker.handle with
  | busy offset bytes => exact Or.inr ⟨offset, bytes, rfl, by simp [release, held]⟩
  | closed | idle | failed => exact Or.inl ⟨rfl, by simp [release, held]⟩

/-- The write that this event lets reach the file. -/
def touching (worker : Worker) (event : WorkerEvent) : Option (Nat × Nat) :=
  match worker.pc, event with
  | .writing segment bytes, .wrote => some (segment.pos, bytes.length)
  | .writing segment bytes, .writeFailed kept => some (segment.pos, (bytes.take kept).length)
  | _, _ => none

/-- These facts hold when `write_all` accepts bytes at the end of what was handed over before. -/
structure Accepts (right : Nat → UInt8 → Prop) (worker next : Worker) (bytes : List UInt8) : Prop where
  nonempty : bytes ≠ []
  suited : Matches right worker.handed bytes
  bounded : worker.handed + bytes.length ≤ worker.stop
  level : worker.current = worker.handed
  handed : next.handed = worker.handed + bytes.length
  current : next.current = worker.current
  before : worker.uncounted = 0
  after : next.uncounted = bytes.length

/-- These facts hold when a step moves no position and no counter. -/
structure Rests (worker next : Worker) : Prop where
  handed : next.handed = worker.handed
  current : next.current = worker.current
  uncounted : next.uncounted = worker.uncounted

/-- These are all the things that one worker step can do. -/
inductive Moved (right : Nat → UInt8 → Prop) (io : FileIo) (worker : Worker) (event : WorkerEvent)
    (next : Worker) : Effect → Prop
  | control (rests : Rests worker next) (flight : next.handle.flight = worker.handle.flight) :
      Moved right io worker event next .none
  | wrote (bytes : List UInt8) (mode : io = .through) (accepts : Accepts right worker next bytes)
      (flight : next.handle.flight = worker.handle.flight)
      (touched : worker.touching event = some (worker.handed, bytes.length)) :
      Moved right io worker event next (.write worker.handed bytes)
  | passed (bytes : List UInt8) (mode : io = .background) (accepts : Accepts right worker next bytes)
      (idle : worker.handle.flight = none) (flight : next.handle.flight = some (worker.handed, bytes)) :
      Moved right io worker event next .none
  | torn (bytes : List UInt8) (kept : Nat) (mode : io = .through) (failed : event = .writeFailed kept)
      (suited : Matches right worker.handed bytes) (bounded : worker.handed + bytes.length ≤ worker.stop)
      (rests : Rests worker next) (flight : next.handle.flight = none)
      (touched : worker.touching event = some (worker.handed, bytes.length)) :
      Moved right io worker event next (.write worker.handed bytes)
  | stored (level : next.current = worker.handed) (grows : worker.current ≤ worker.handed)
      (handed : next.handed = worker.handed) (uncounted : next.uncounted = worker.uncounted)
      (flight : next.handle.flight = worker.handle.flight) : Moved right io worker event next .none
  | counted (handed : next.handed = worker.handed) (current : next.current = worker.current)
      (after : next.uncounted = 0) (flight : next.handle.flight = worker.handle.flight) :
      Moved right io worker event next (.add worker.uncounted)
  | marked (response : Response) (answered : event = .reply (some response)) (status : response.status = 416)
      (current : next.current = worker.stop) (handed : next.handed = worker.handed)
      (uncounted : next.uncounted = worker.uncounted)
      (flight : next.handle.flight = worker.handle.flight) : Moved right io worker event next .none
  | dropped (offset : Nat) (bytes : List UInt8) (rests : Rests worker next)
      (carried : worker.handle.flight = some (offset, bytes)) (flight : next.handle.flight = none) :
      Moved right io worker event next (.orphan offset bytes)

/-- A step keeps the range, keeps the worker sound, and does one of the listed things. -/
structure StepFacts (right : Nat → UInt8 → Prop) (io : FileIo) (worker : Worker) (event : WorkerEvent)
    (next : Worker) (effect : Effect) : Prop where
  start : next.start = worker.start
  stop : next.stop = worker.stop
  sound : next.Sound right
  moved : Moved right io worker event next effect

/-- A segment that ends rests on level positions and drops its handle. -/
theorem release_facts {io : FileIo} {event : WorkerEvent} {left : Worker}
    (start : left.start = worker.start) (stop : left.stop = worker.stop) (sound : left.Sound right)
    (rests : Rests worker left) (handle : left.handle = worker.handle) :
    StepFacts right io worker event left.release.1 left.release.2 := by
  have closed : ({ left with handle := .closed } : Worker).Sound right :=
    ⟨sound.start_le, sound.current_le, sound.start_le_handed, sound.handed_le, sound.aligned⟩
  have still : Rests worker ({ left with handle := .closed } : Worker) :=
    ⟨rests.handed, rests.current, rests.uncounted⟩
  rcases left.release_cases with ⟨flight, released⟩ | ⟨offset, bytes, flight, released⟩
  · rw [released]
    exact ⟨start, stop, closed, .control still (by rw [← handle, flight]; rfl)⟩
  · rw [released]
    exact ⟨start, stop, closed, .dropped offset bytes still (by rw [← handle, flight]) rfl⟩

end Worker

end FastDownloader
