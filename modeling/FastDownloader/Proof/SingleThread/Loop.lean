/-
This file shows which bytes the stream loop keeps.
-/

import FastDownloader.Model.SingleThread
import FastDownloader.Model.StreamLoop
import FastDownloader.Proof.Disk.Contents

namespace FastDownloader

open Foundation

namespace StreamLoop

variable {bits flushIntervalBytes : Nat} {loop : StreamLoop} {chunks : List (List UInt8)}

/-- The counter of unflushed bytes never passes the position. -/
def Counted (loop : StreamLoop) : Prop := loop.bytesSinceFlush ≤ loop.pos ∧ loop.pos < wordLimit

/-- A write that fits moves the position and appends its bytes. -/
theorem write_of_lt (flushIntervalBytes : Nat) (bytes : List UInt8) (counted : loop.Counted)
    (fits : loop.pos + bytes.length < wordLimit) :
    ∃ next, loop.write flushIntervalBytes bytes = some next ∧ next.Counted ∧ next.pos = loop.pos + bytes.length ∧
      next.file = loop.file ++ bytes := by
  have since : loop.bytesSinceFlush + bytes.length < wordLimit :=
    Nat.lt_of_le_of_lt (Nat.add_le_add_right counted.1 _) fits
  rw [write, checkedAdd_of_lt fits, Option.bind_some, checkedAdd_of_lt since, Option.map_some]
  refine ⟨_, rfl, ⟨?_, fits⟩, rfl, rfl⟩
  dsimp only
  split_ifs
  · exact Nat.zero_le _
  · exact Nat.add_le_add_right counted.1 _

theorem sub_mod_of_le {limit value part : Nat} (positive : 0 < limit) (inside : part ≤ value % limit) :
    (value - part) % limit = value % limit - part := by
  have split := Nat.div_add_mod value limit
  have small := Nat.mod_lt value positive
  have shape : value - part = (value % limit - part) + limit * (value / limit) := by omega
  rw [shape, Nat.add_mul_mod_self_left, Nat.mod_eq_of_lt (by omega)]

/-- With a known total the loop keeps as many bytes as the cast leaves of the missing ones. -/
theorem run_known {total : Nat} (word : total < wordLimit) (counted : loop.Counted) (room : loop.pos ≤ total) :
    ∃ last, loop.run bits flushIntervalBytes (some total) chunks = some last ∧
      last.pos = loop.pos + min (asUsize bits (total - loop.pos)) chunks.flatten.length ∧
      last.file = loop.file ++ chunks.flatten.take (asUsize bits (total - loop.pos)) := by
  induction chunks generalizing loop with
  | nil => exact ⟨loop, rfl, by simp, by simp⟩
  | cons chunk chunks ih =>
      rw [run]
      split_ifs with empty full
      · obtain rfl := List.isEmpty_iff.mp empty
        exact ih counted room
      · obtain same : loop.pos = total := Nat.le_antisymm room (of_decide_eq_true full)
        refine ⟨loop, rfl, ?_, ?_⟩ <;> simp [same, asUsize]
      · have limit : 0 < 2 ^ bits := Nat.two_pow_pos bits
        have cast : asUsize bits (total - loop.pos) ≤ total - loop.pos := Nat.mod_le _ _
        have length : (chunk.take (writeLen bits (some total) loop.pos chunk.length)).length =
            min (asUsize bits (total - loop.pos)) chunk.length := by
          rw [List.length_take, writeLen, Nat.min_assoc, Nat.min_self]
        obtain ⟨next, wrote, held, moved, appended⟩ := write_of_lt flushIntervalBytes
          (chunk.take (writeLen bits (some total) loop.pos chunk.length)) counted (by rw [length]; omega)
        rw [length] at moved
        obtain ⟨last, ran, pos, file⟩ := ih held (by omega)
        have left : asUsize bits (total - next.pos) =
            asUsize bits (total - loop.pos) - min (asUsize bits (total - loop.pos)) chunk.length := by
          rw [moved, Nat.sub_add_eq]
          exact sub_mod_of_le limit (Nat.min_le_left _ _)
        refine ⟨last, ?_, ?_, ?_⟩
        · rw [wrote, Option.bind_some, ran]
        · rw [pos, left, moved, List.flatten_cons, List.length_append]
          omega
        · rw [file, left, appended, List.flatten_cons, List.take_append, List.append_assoc, writeLen]
          congr 2
          · rw [List.take_eq_take_iff]
            omega
          · congr 1
            omega

/-- Without a total the loop keeps all bytes. -/
theorem run_unknown (counted : loop.Counted) (fits : loop.pos + chunks.flatten.length < wordLimit) :
    ∃ last, loop.run bits flushIntervalBytes none chunks = some last ∧
      last.pos = loop.pos + chunks.flatten.length ∧ last.file = loop.file ++ chunks.flatten := by
  induction chunks generalizing loop with
  | nil => exact ⟨loop, rfl, by simp, by simp⟩
  | cons chunk chunks ih =>
      rw [List.flatten_cons, List.length_append] at fits
      rw [run]
      split_ifs with empty full
      · obtain rfl := List.isEmpty_iff.mp empty
        exact ih counted (by simpa using fits)
      · cases full
      · have whole : chunk.take (writeLen bits none loop.pos chunk.length) = chunk := List.take_length
        obtain ⟨next, wrote, held, moved, appended⟩ := write_of_lt flushIntervalBytes chunk counted (by omega)
        obtain ⟨last, ran, pos, file⟩ := ih held (by omega)
        refine ⟨last, ?_, ?_, ?_⟩
        · rw [whole, wrote, Option.bind_some, ran]
        · rw [pos, moved, List.flatten_cons, List.length_append, Nat.add_assoc]
        · rw [file, appended, List.flatten_cons, List.append_assoc]

/-- Each position that the loop reaches is a number of 64 bits. -/
theorem run_pos_lt {total : Option Nat} {last : StreamLoop} (word : loop.pos < wordLimit)
    (ran : loop.run bits flushIntervalBytes total chunks = some last) : last.pos < wordLimit := by
  induction chunks generalizing loop with
  | nil =>
      obtain rfl := Option.some.inj ran
      exact word
  | cons chunk chunks ih =>
      rw [run] at ran
      split_ifs at ran
      · exact ih word ran
      · obtain rfl := Option.some.inj ran
        exact word
      · obtain ⟨next, wrote, later⟩ := Option.bind_eq_some_iff.mp ran
        obtain ⟨pos, moved, counted⟩ := Option.bind_eq_some_iff.mp wrote
        obtain ⟨since, -, rfl⟩ := Option.map_eq_some_iff.mp counted
        apply ih _ later
        obtain ⟨fits, rfl⟩ := checkedAdd_eq_some moved
        exact fits

/-- So many bytes of the body belong into the file. -/
def keptLen (total : Option Nat) (pos bodyLen : Nat) : Nat :=
  match total with
  | some total => min (total - pos) bodyLen
  | none => bodyLen

/-- The loop appends the first bytes of the body and moves its position by as many. -/
def KeepsFirst (bits flushIntervalBytes : Nat) (total : Option Nat) (pos : Nat) (file : List UInt8)
    (chunks : List (List UInt8)) : Prop :=
  ∃ last, run bits flushIntervalBytes total ⟨pos, 0, file⟩ chunks = some last ∧
    last.pos = pos + keptLen total pos chunks.flatten.length ∧
    last.file = file ++ chunks.flatten.take (keptLen total pos chunks.flatten.length)

/-- The missing length fits into a word, or the body ends before the cast shows. Without a total the position must not
overflow. -/
def CastKeeps (bits : Nat) (total : Option Nat) (pos bodyLen : Nat) : Prop :=
  match total with
  | some total => total - pos < 2 ^ bits ∨ bodyLen ≤ asUsize bits (total - pos)
  | none => pos + bodyLen < wordLimit

/-- Where every cut of a body ends with one file, the cut does not matter. -/
theorem files_agree {total : Option Nat} {pos : Nat} {file : List UInt8} (whole : List UInt8)
    (ends : ∀ cut : List (List UInt8), cut.flatten = chunks.flatten →
      ∃ last, run bits flushIntervalBytes total ⟨pos, 0, file⟩ cut = some last ∧ last.file = whole) :
    ∀ others : List (List UInt8), others.flatten = chunks.flatten →
      (run bits flushIntervalBytes total ⟨pos, 0, file⟩ others).map StreamLoop.file =
        (run bits flushIntervalBytes total ⟨pos, 0, file⟩ chunks).map StreamLoop.file := by
  intro others same
  obtain ⟨last, ran, kept⟩ := ends chunks rfl
  obtain ⟨other, ran', kept'⟩ := ends others same
  rw [ran, ran', Option.map_some, Option.map_some, kept, kept']

/-- The cast loses nothing of a body just when as many bytes are kept as belong into the file. -/
theorem castKeeps_iff_keptLen (bits total pos bodyLen : Nat) :
    CastKeeps bits (some total) pos bodyLen ↔
      min (asUsize bits (total - pos)) bodyLen = keptLen (some total) pos bodyLen := by
  have least : asUsize bits (total - pos) ≤ total - pos := Nat.mod_le _ _
  have cast : asUsize bits (total - pos) < 2 ^ bits := Nat.mod_lt _ (Nat.two_pow_pos bits)
  rw [CastKeeps, keptLen]
  constructor
  · rintro (small | short)
    · rw [asUsize, Nat.mod_eq_of_lt small]
    · omega
  · intro same
    by_contra lost
    omega

/-- The loop keeps the first bytes of the body, however it is cut, just when the cast to a word loses nothing. -/
theorem keepsFirst_iff (bits flushIntervalBytes pos : Nat) (total : Option Nat) (file : List UInt8)
    (chunks : List (List UInt8)) (word : pos < wordLimit) (known : ∀ length ∈ total, pos ≤ length ∧ length < wordLimit) :
    (KeepsFirst bits flushIntervalBytes total pos file chunks ∧
      ∀ others : List (List UInt8), others.flatten = chunks.flatten →
        (run bits flushIntervalBytes total ⟨pos, 0, file⟩ others).map StreamLoop.file =
          (run bits flushIntervalBytes total ⟨pos, 0, file⟩ chunks).map StreamLoop.file) ↔
      CastKeeps bits total pos chunks.flatten.length := by
  have counted : Counted ⟨pos, 0, file⟩ := ⟨Nat.zero_le _, word⟩
  cases total with
  | none =>
      constructor
      · rintro ⟨⟨last, ran, moved, -⟩, -⟩
        have bounded := run_pos_lt word ran
        rw [moved] at bounded
        exact bounded
      · intro fits
        have keeps (cut : List (List UInt8)) (same : cut.flatten = chunks.flatten) :
            ∃ last, run bits flushIntervalBytes none ⟨pos, 0, file⟩ cut = some last ∧
              last.pos = pos + chunks.flatten.length ∧ last.file = file ++ chunks.flatten := by
          rw [← same]
          apply run_unknown counted
          rw [same]
          exact fits
        obtain ⟨last, ran, moved, appended⟩ := keeps chunks rfl
        refine ⟨⟨last, ran, moved, ?_⟩, files_agree last.file fun cut same => ?_⟩
        · rw [keptLen, List.take_length]
          exact appended
        · obtain ⟨other, ran', -, appended'⟩ := keeps cut same
          exact ⟨other, ran', appended'.trans appended.symm⟩
  | some total =>
      obtain ⟨room, bounded⟩ := known total rfl
      have keeps (cut : List (List UInt8)) (same : cut.flatten = chunks.flatten) :
          ∃ last, run bits flushIntervalBytes (some total) ⟨pos, 0, file⟩ cut = some last ∧
            last.pos = pos + min (asUsize bits (total - pos)) chunks.flatten.length ∧
            last.file = file ++ chunks.flatten.take (asUsize bits (total - pos)) := by
        rw [← same]
        exact run_known bounded counted room
      obtain ⟨last, ran, moved, appended⟩ := keeps chunks rfl
      rw [castKeeps_iff_keptLen]
      constructor
      · rintro ⟨⟨other, ran', moved', -⟩, -⟩
        obtain rfl := Option.some.inj (ran.symm.trans ran')
        exact Nat.add_left_cancel (moved.symm.trans moved')
      · intro same
        refine ⟨⟨last, ran, same ▸ moved, ?_⟩, files_agree last.file fun cut equal => ?_⟩
        · rw [appended, ← same, List.take_eq_take_min]
        · obtain ⟨other, ran', -, appended'⟩ := keeps cut equal
          exact ⟨other, ran', appended'.trans appended.symm⟩

/-- Two of the three bytes belong into the file. -/
theorem keepsFirst_iff_cut :
    (KeepsFirst 32 (2 ^ 22) (some 7) 5 [] [[7], [], [8, 9]] ∧
      ∀ others : List (List UInt8), others.flatten = [[7], [], [8, 9]].flatten →
        (run 32 (2 ^ 22) (some 7) ⟨5, 0, []⟩ others).map StreamLoop.file =
          (run 32 (2 ^ 22) (some 7) ⟨5, 0, []⟩ [[7], [], [8, 9]]).map StreamLoop.file) ↔
      CastKeeps 32 (some 7) 5 [[7], [], [8, 9]].flatten.length :=
  keepsFirst_iff 32 (2 ^ 22) 5 (some 7) [] [[7], [], [8, 9]] (by decide) (by decide)

/-- With words of 32 bits a missing length of 4 GiB is cast to zero, and the loop keeps nothing. -/
theorem not_keepsFirst :
    run 32 (2 ^ 22) (some (2 ^ 32)) ⟨0, 0, []⟩ [[7]] = some ⟨0, 0, []⟩ ∧
      ¬ KeepsFirst 32 (2 ^ 22) (some (2 ^ 32)) 0 [] [[7]] := by
  have ran : run 32 (2 ^ 22) (some (2 ^ 32)) ⟨0, 0, []⟩ [[7]] = some ⟨0, 0, []⟩ := by decide
  refine ⟨ran, ?_⟩
  rintro ⟨last, other, -, file⟩
  obtain rfl := Option.some.inj (ran.symm.trans other)
  exact absurd file (by decide)

/-- With words of 64 bits the loop cuts a chunk where the model of the whole attempt does. -/
theorem writeLen_word {total : Option Nat} (word : ∀ length ∈ total, length < wordLimit)
    (pos bytesSinceFlush chunkLen : Nat) (body : List UInt8) :
    writeLen 64 total pos chunkLen = Stream.writeLen ⟨pos, total, bytesSinceFlush, body⟩ chunkLen := by
  cases total with
  | none => rfl
  | some total =>
      have fits : total - pos < 2 ^ 64 := Nat.lt_of_le_of_lt (Nat.sub_le _ _) (word total rfl)
      rw [writeLen, Stream.writeLen, asUsize, Nat.mod_eq_of_lt fits]

/-- With words of 64 bits a known total is always kept. -/
theorem castKeeps_word {total : Nat} (word : total < wordLimit) (pos bodyLen : Nat) :
    CastKeeps 64 (some total) pos bodyLen :=
  Or.inl (Nat.lt_of_le_of_lt (Nat.sub_le _ _) word)

/-- The attempt streams this body into a file that ends at the position of the loop. -/
structure Streams {Text : Type} (total : Option Nat) (body : List UInt8) (loop : StreamLoop) (disk : Disk Text)
    (single : Single) : Prop where
  at_pc : single.pc = .streaming ⟨loop.pos, total, loop.bytesSinceFlush, body⟩
  uncancelled : single.cancelled = false
  present : disk.contents = some loop.file
  level : loop.file.length = loop.pos

section Attempt

variable {Text : Type} {job : Job} {total : Option Nat} {chunk body : List UInt8} {disk : Disk Text} {single : Single}
  {next last : StreamLoop}

/-- The attempt flushes a full buffer, and syncs it if it has to. -/
theorem flush_attempt (uncancelled : single.cancelled = false) (stream : Stream) :
    ∃ events after, Run (Single.step .through job) (fun _ _ => True)
        (disk, { single with pc := .flushing stream }) events after ∧
      after.2.pc = .streaming { stream with bytesSinceFlush := 0 } ∧ after.2.cancelled = false ∧
      after.1.contents = disk.contents := by
  by_cases durable : job.cfg.durableResume = true
  · have flushed : Single.step .through job (disk, { single with pc := .flushing stream }) (.flushed true) =
        some (disk, { single with pc := .syncing stream }) := by
      simp [Single.step, Worker.flushReports, Single.onFlushed, durable]
    refine ⟨[.flushed true, .synced true],
      (disk.sync, { single with pc := .streaming { stream with bytesSinceFlush := 0 } }), ?_, rfl, uncancelled,
      Disk.contents_sync⟩
    exact .cons trivial flushed (.cons trivial rfl (.nil _))
  · have flushed : Single.step .through job (disk, { single with pc := .flushing stream }) (.flushed true) =
        some (disk, { single with pc := .streaming { stream with bytesSinceFlush := 0 } }) := by
      simp [Single.step, Worker.flushReports, Single.onFlushed, durable]
    exact ⟨[.flushed true], _, .cons trivial flushed (.nil _), rfl, uncancelled, rfl⟩

/-- The attempt leaves a stream that is full and cuts a chunk otherwise. -/
theorem deliver_attempt (streams : Streams total (chunk ++ body) loop disk single)
    (word : ∀ length ∈ total, length < wordLimit) (nonempty : chunk ≠ []) :
    Single.step .through job (disk, single) (.chunk chunk.length) = some (disk,
      if total.any fun total => total ≤ loop.pos then { single with pc := .closing total (.ok ()) }
      else
        { single with
          pc := .writing ⟨loop.pos, total, loop.bytesSinceFlush, body⟩
            (chunk.take (writeLen 64 total loop.pos chunk.length)) }) := by
  have present : chunk.isEmpty = false := List.isEmpty_eq_false_iff.mpr nonempty
  rw [writeLen_word word loop.pos loop.bytesSinceFlush chunk.length (chunk ++ body)]
  simp [Single.step, streams.at_pc, Single.onChunk, streams.uncancelled, Stream.full, present]

/-- The attempt writes the bytes of the loop to the end of the file. -/
theorem write_attempt {bytes : List UInt8} (uncancelled : single.cancelled = false)
    (present : disk.contents = some loop.file) (level : loop.file.length = loop.pos)
    (wrote : loop.write job.cfg.flushIntervalBytes bytes = some next) :
    ∃ events after, Run (Single.step .through job) (fun _ _ => True)
        (disk, { single with pc := .writing ⟨loop.pos, total, loop.bytesSinceFlush, body⟩ bytes }) events after ∧
      Streams total body next after.1 after.2 := by
  obtain ⟨pos, moved, counted⟩ := Option.bind_eq_some_iff.mp wrote
  obtain ⟨since, summed, rfl⟩ := Option.map_eq_some_iff.mp counted
  obtain ⟨-, rfl⟩ := checkedAdd_eq_some moved
  obtain ⟨-, rfl⟩ := checkedAdd_eq_some summed
  have written : (disk.write loop.pos bytes).contents = some (loop.file ++ bytes) :=
    level ▸ Disk.contents_write present bytes
  have longer : (loop.file ++ bytes).length = loop.pos + bytes.length := by rw [List.length_append, level]
  have taken : Single.step .through job
      (disk, { single with pc := .writing ⟨loop.pos, total, loop.bytesSinceFlush, body⟩ bytes }) .wrote =
      some (disk.write loop.pos bytes,
        single.onWrote job.cfg ⟨loop.pos, total, loop.bytesSinceFlush, body⟩ bytes) := by
    unfold Single.onWrote
    rfl
  unfold Single.onWrote at taken
  dsimp only at taken
  by_cases full : loop.bytesSinceFlush + bytes.length ≥ job.cfg.flushIntervalBytes
  · rw [if_pos full] at taken ⊢
    obtain ⟨events, after, flushes, streaming, still, same⟩ := flush_attempt uncancelled
      ⟨loop.pos + bytes.length, total, loop.bytesSinceFlush + bytes.length, body⟩
    exact ⟨.wrote :: events, after, .cons trivial taken flushes, streaming, still, same.trans written, longer⟩
  · rw [if_neg full] at taken ⊢
    exact ⟨[.wrote], _, .cons trivial taken (.nil _), rfl, uncancelled, written, longer⟩

/-- With words of 64 bits the attempt ends its stream with the file of the loop. -/
theorem run_attempt {chunks : List (List UInt8)} (streams : Streams total chunks.flatten loop disk single)
    (word : ∀ length ∈ total, length < wordLimit)
    (ran : loop.run 64 job.cfg.flushIntervalBytes total chunks = some last) :
    ∃ events after, Run (Single.step .through job) (fun _ _ => True) (disk, single) events after ∧
      after.2.pc = .closing total (.ok ()) ∧ after.1.contents = some last.file ∧ last.file.length = last.pos := by
  induction chunks generalizing loop disk single with
  | nil =>
      obtain rfl := Option.some.inj ran
      refine ⟨[.streamEnd], (disk, { single with pc := .closing total (.ok ()) }), ?_, rfl, streams.present,
        streams.level⟩
      have ended : Single.step .through job (disk, single) .streamEnd =
          some (disk, { single with pc := .closing total (.ok ()) }) := by
        simp [Single.step, streams.at_pc]
      exact .cons trivial ended (.nil _)
  | cons chunk chunks ih =>
      rw [run] at ran
      split_ifs at ran with empty full
      · obtain rfl := List.isEmpty_iff.mp empty
        exact ih streams ran
      · obtain rfl := Option.some.inj ran
        have nonempty : chunk ≠ [] := fun none => empty (List.isEmpty_iff.mpr none)
        have delivered : Single.step .through job (disk, single) (.chunk chunk.length) =
            some (disk, { single with pc := .closing total (.ok ()) }) := by
          rw [deliver_attempt streams word nonempty, if_pos full]
        exact ⟨[.chunk chunk.length], (disk, { single with pc := .closing total (.ok ()) }),
          .cons trivial delivered (.nil _), rfl, streams.present, streams.level⟩
      · obtain ⟨next, wrote, later⟩ := Option.bind_eq_some_iff.mp ran
        have nonempty : chunk ≠ [] := fun none => empty (List.isEmpty_iff.mpr none)
        have delivered : Single.step .through job (disk, single) (.chunk chunk.length) = _ :=
          deliver_attempt streams word nonempty
        rw [if_neg full] at delivered
        obtain ⟨events, middle, writes, kept⟩ :=
          write_attempt streams.uncancelled streams.present streams.level wrote
        obtain ⟨rest, after, run, closes⟩ := ih kept later
        exact ⟨.chunk chunk.length :: (events ++ rest), after, .cons trivial delivered (writes.append run), closes⟩

end Attempt

end StreamLoop

end FastDownloader
