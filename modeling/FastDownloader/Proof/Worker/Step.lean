/-
This file proves what one step of a worker does, one lemma for each control point.
-/

import FastDownloader.Proof.Worker.Invariant
import FastDownloader.Proof.Worker.Move

namespace FastDownloader

/-- An answer 206 carries the right bytes for the requested position. -/
def Worker.Answered (right : Nat → UInt8 → Prop) (worker : Worker) : WorkerEvent → Prop
  | .reply (some response) =>
      ∀ pos ∈ worker.requested, response.status = 206 → Matches right pos response.body
  | _ => True

instance (right : Nat → UInt8 → Prop) [∀ position byte, Decidable (right position byte)] (worker : Worker) :
    ∀ event, Decidable (worker.Answered right event)
  | .reply (some _) => inferInstanceAs (Decidable (∀ pos ∈ worker.requested, _ → Matches right pos _))
  | .reply none | .check | .opened _ | .chunk _ | .streamEnd | .streamError | .wrote | .writeFailed _ | .store
  | .count | .flushed _ | .slept | .interrupted => .isTrue trivial

namespace Worker

variable {right : Nat → UInt8 → Prop} {io : FileIo} {cfg : DownloaderConfig} {worker : Worker}
  {event : WorkerEvent}

/-- A jump to another control point moves nothing else. -/
theorem jump_facts (sound : worker.Sound right) (pc : WorkerPc)
    (aligned : ({ worker with pc := pc } : Worker).Aligned right)
    (uncounted : ({ worker with pc := pc } : Worker).uncounted = worker.uncounted) :
    StepFacts right io worker event { worker with pc := pc } .none where
  start := rfl
  stop := rfl
  sound := ⟨sound.start_le, sound.current_le, sound.start_le_handed, sound.handed_le, aligned⟩
  moved := .control ⟨rfl, rfl, uncounted⟩ rfl

/-- A failed request keeps the closed or idle handle as it is. -/
theorem fail_facts (sound : worker.Sound right) (level : worker.handed = worker.current)
    (counted : worker.uncounted = 0) (error : Error) :
    StepFacts right io worker event (worker.fail cfg error) .none where
  start := by simp
  stop := by simp
  sound := fail_sound sound level error
  moved := .control ⟨by simp, by simp, by simp [counted]⟩ (by simp)

theorem fail_release_facts (sound : worker.Sound right) (level : worker.handed = worker.current)
    (counted : worker.uncounted = 0) (error : Error) :
    StepFacts right io worker event (worker.fail cfg error).release.1 (worker.fail cfg error).release.2 :=
  release_facts (by simp) (by simp) (fail_sound sound level error)
    ⟨by simp, by simp, by simp [counted]⟩ (by simp)

theorem onHead_facts (sound : worker.Sound right) (at_pc : worker.pc = .head) (cancelled : Bool) :
    StepFacts right io worker event (worker.onHead cancelled) .none := by
  have aligned := sound.aligned
  simp only [Aligned, at_pc] at aligned
  have counted : worker.uncounted = 0 := by simp [uncounted, at_pc]
  unfold onHead
  split_ifs with more stopped
  · exact jump_facts sound _ aligned counted.symm
  · have level : worker.handed = worker.current := aligned.resolve_right (by omega)
    exact jump_facts sound _ ⟨rfl, level, more⟩ counted.symm
  · exact jump_facts sound _ aligned counted.symm

theorem onReply_facts (sound : worker.Sound right) {pos : Nat} (at_pc : worker.pc = .sent pos)
    {response : Response} (given : event = .reply (some response))
    (answered : worker.Answered right event) (ifRange : Option String) :
    StepFacts right io worker event (worker.onReply cfg ifRange pos response) .none := by
  have aligned := sound.aligned
  simp only [Aligned, at_pc] at aligned
  obtain ⟨here, level, more⟩ := aligned
  have counted : worker.uncounted = 0 := by simp [uncounted, at_pc]
  unfold onReply
  split_ifs with partialContent complete validated unsatisfiable
  · subst given
    have body := answered pos (by simp [requested, at_pc]) partialContent
    exact jump_facts sound _ ⟨here, level, more, body⟩ counted.symm
  · exact jump_facts sound _ (Or.inl level) counted.symm
  · exact jump_facts sound _ (Or.inl level) counted.symm
  · refine ⟨rfl, rfl, ⟨?_, Nat.le_refl _, sound.start_le_handed, sound.handed_le, Or.inr rfl⟩, ?_⟩
    · exact Nat.le_trans sound.start_le sound.current_le
    · exact .marked response given unsatisfiable rfl rfl (by simp [uncounted, at_pc]) rfl
  · exact fail_facts sound level counted _

theorem opened_facts (sound : worker.Sound right) {pos : Nat} {body : List UInt8}
    (at_pc : worker.pc = .opening pos body) (closed : worker.handle.flight = none) :
    StepFacts right io worker event
      { worker with pc := .streaming ⟨pos, 0, body⟩, handle := .idle } .none := by
  have aligned := sound.aligned
  simp only [Aligned, at_pc] at aligned
  refine ⟨rfl, rfl, ⟨sound.start_le, sound.current_le, sound.start_le_handed, sound.handed_le, ?_⟩, ?_⟩
  · exact aligned
  · exact .control ⟨rfl, rfl, by simp [uncounted, at_pc]⟩ (by rw [closed]; rfl)

theorem onChunk_facts (sound : worker.Sound right) {segment : Segment}
    (at_pc : worker.pc = .streaming segment) (cancelled : Bool) (size : Nat) :
    StepFacts right io worker event (worker.onChunk cancelled segment size) .none := by
  have aligned := sound.aligned
  simp only [Aligned, at_pc] at aligned
  obtain ⟨here, level, more, body⟩ := aligned
  have counted : worker.uncounted = 0 := by simp [uncounted, at_pc]
  unfold onChunk
  dsimp only
  split_ifs with stopped empty full
  · exact jump_facts sound _ level counted.symm
  · refine jump_facts sound _ ⟨here, level, more, ?_⟩ counted.symm
    simpa only [empty, Nat.add_zero] using body.rest size
  · exact jump_facts sound _ level counted.symm
  · have positive : 0 < (segment.body.take size).length := Nat.pos_of_ne_zero empty
    unfold writeLen
    split_ifs with long
    · -- The chunk reaches behind the end of the range, so only its first bytes are written.
      have cut : ((segment.body.take size).take (worker.stop - segment.pos)).length =
          worker.stop - segment.pos := by
        rw [List.length_take]
        omega
      refine jump_facts sound _ ⟨here, level, ?_, ?_, (body.take size).take _, ?_⟩ counted.symm
      · exact List.ne_nil_of_length_pos (by omega)
      · rw [cut]
        exact Nat.le_of_eq (Nat.add_sub_cancel' (Nat.le_of_lt more))
      · intro below
        rw [cut] at below
        dsimp only at below
        omega
    · refine jump_facts sound _ ⟨here, level, ?_, ?_, (body.take size).take _, ?_⟩ counted.symm
      · rw [List.take_length]
        exact List.ne_nil_of_length_pos positive
      · rw [List.take_length]
        exact Nat.le_of_not_lt long
      · intro _
        rw [List.take_length]
        exact body.rest size

/-- The bytes of an accepted write start where the last accepted write ended. -/
theorem onWrote_accepts (sound : worker.Sound right) {segment : Segment} {bytes : List UInt8}
    (at_pc : worker.pc = .writing segment bytes) :
    segment.pos = worker.handed ∧ Accepts right worker (worker.onWrote segment bytes) bytes ∧
      (worker.onWrote segment bytes).Sound right := by
  have aligned := sound.aligned
  simp only [Aligned, at_pc] at aligned
  obtain ⟨here, level, nonempty, bounded, suited, rest⟩ := aligned
  have same : segment.pos = worker.handed := here.trans level.symm
  refine ⟨same, ⟨nonempty, same ▸ suited, same ▸ bounded, level.symm, ?_, rfl, ?_, rfl⟩, ?_⟩
  · simp [onWrote, same]
  · simp [uncounted, at_pc]
  · refine ⟨sound.start_le, sound.current_le, ?_, bounded, ⟨rfl, ?_, rest⟩⟩
    · exact Nat.le_trans sound.start_le (here ▸ Nat.le_add_right _ _)
    · simp [onWrote, here]

theorem wrote_facts (sound : worker.Sound right) {segment : Segment} {bytes : List UInt8}
    (at_pc : worker.pc = .writing segment bytes) :
    StepFacts right .through worker .wrote (worker.onWrote segment bytes) (.write segment.pos bytes) := by
  obtain ⟨same, accepts, kept⟩ := onWrote_accepts sound at_pc
  rw [same]
  refine ⟨rfl, rfl, kept, .wrote bytes rfl accepts rfl ?_⟩
  simp [touching, at_pc, same]

theorem passed_facts (sound : worker.Sound right) {segment : Segment} {bytes : List UInt8}
    (at_pc : worker.pc = .writing segment bytes) (idle : worker.handle = .idle) :
    StepFacts right .background worker event
      { worker.onWrote segment bytes with handle := .busy segment.pos bytes } .none := by
  obtain ⟨same, accepts, kept⟩ := onWrote_accepts sound at_pc
  refine ⟨rfl, rfl, ⟨kept.start_le, kept.current_le, kept.start_le_handed, kept.handed_le, kept.aligned⟩, ?_⟩
  refine .passed bytes rfl ⟨accepts.nonempty, accepts.suited, accepts.bounded, accepts.level,
    accepts.handed, accepts.current, accepts.before, accepts.after⟩ (by simp [idle, Handle.flight]) ?_
  simp [Handle.flight, same]

theorem torn_facts (sound : worker.Sound right) {segment : Segment} {bytes : List UInt8}
    (at_pc : worker.pc = .writing segment bytes) (kept : Nat) :
    StepFacts right .through worker (.writeFailed kept) (worker.fail cfg .io).release.1
      (.write segment.pos (bytes.take kept)) := by
  have aligned := sound.aligned
  simp only [Aligned, at_pc] at aligned
  obtain ⟨here, level, nonempty, bounded, suited, rest⟩ := aligned
  have same : segment.pos = worker.handed := here.trans level.symm
  have counted : worker.uncounted = 0 := by simp [uncounted, at_pc]
  have facts : StepFacts right .through worker (.writeFailed kept) (worker.fail cfg .io).release.1
      (worker.fail cfg .io).release.2 := fail_release_facts sound level counted .io
  have closed : (worker.fail cfg .io).release.1 = { worker.fail cfg .io with handle := .closed } := by
    rcases (worker.fail cfg .io).release_cases with ⟨_, released⟩ | ⟨_, _, _, released⟩ <;> rw [released]
  rw [same]
  refine ⟨facts.start, facts.stop, facts.sound,
    .torn (bytes.take kept) kept rfl rfl ((same ▸ suited).take kept) ?_ ?_ ?_ ?_⟩
  · have := List.length_take_le' kept bytes
    omega
  · rw [closed]
    exact ⟨by simp, by simp, by simpa [uncounted] using fail_uncounted cfg worker .io |>.trans counted.symm⟩
  · rw [closed]
    rfl
  · simp [touching, at_pc, same]

theorem store_facts (sound : worker.Sound right) {segment : Segment} {written : Nat}
    (at_pc : worker.pc = .storing segment written) :
    StepFacts right io worker event { worker with current := segment.pos, pc := .counting segment written }
      .none := by
  have aligned := sound.aligned
  simp only [Aligned, at_pc] at aligned
  obtain ⟨here, ahead, rest⟩ := aligned
  have lower := sound.start_le
  have upper := sound.handed_le
  have floor := sound.start_le_handed
  refine ⟨rfl, rfl, ⟨?_, ?_, floor, upper, ⟨here, rfl, ?_, rest⟩⟩, ?_⟩
  · dsimp only
    omega
  · dsimp only
    omega
  · dsimp only
    omega
  · exact .stored here.symm (by omega) rfl (by simp [uncounted, at_pc]) rfl

/-- The next control point after the counter or a flush depends on the end of the range. -/
theorem afterFlush_sound {segment : Segment} (left : Worker) (sound : left.Sound right)
    (here : left.handed = segment.pos) (level : left.current = segment.pos)
    (rest : segment.pos < left.stop → Matches right segment.pos segment.body) :
    (left.afterFlush segment).Sound right := by
  unfold afterFlush
  split_ifs with ended
  · exact ⟨sound.start_le, sound.current_le, sound.start_le_handed, sound.handed_le, here.trans level.symm⟩
  · refine ⟨sound.start_le, sound.current_le, sound.start_le_handed, sound.handed_le, ?_⟩
    exact ⟨level.symm, here.trans level.symm, Nat.lt_of_not_le ended, rest (Nat.lt_of_not_le ended)⟩

@[simp] theorem afterFlush_rests (left : Worker) (segment : Segment) :
    (left.afterFlush segment).handed = left.handed ∧ (left.afterFlush segment).current = left.current ∧
      (left.afterFlush segment).uncounted = 0 ∧ (left.afterFlush segment).handle = left.handle ∧
      (left.afterFlush segment).start = left.start ∧ (left.afterFlush segment).stop = left.stop := by
  unfold afterFlush
  split <;> exact ⟨rfl, rfl, rfl, rfl, rfl, rfl⟩

theorem onCount_facts (sound : worker.Sound right) {segment : Segment} {written : Nat}
    (at_pc : worker.pc = .counting segment written) :
    StepFacts right io worker event (worker.onCount cfg segment) (.add written) := by
  have aligned := sound.aligned
  simp only [Aligned, at_pc] at aligned
  obtain ⟨here, level, lower, rest⟩ := aligned
  have amount : worker.uncounted = written := by simp [uncounted, at_pc]
  rw [← amount]
  unfold onCount
  split_ifs with due
  · refine ⟨rfl, rfl, ⟨sound.start_le, sound.current_le, sound.start_le_handed, sound.handed_le, ?_⟩, ?_⟩
    · exact ⟨here, level, rest⟩
    · exact .counted rfl rfl rfl rfl
  · obtain ⟨handed, current, counted, handle, start, stop⟩ := afterFlush_rests worker segment
    exact ⟨start, stop, afterFlush_sound worker sound here level rest,
      .counted handed current counted (by rw [handle])⟩

theorem flushed_facts (sound : worker.Sound right) {segment : Segment}
    (at_pc : worker.pc = .flushing segment) :
    StepFacts right io worker event (worker.afterFlush { segment with bytesSinceFlush := 0 }) .none := by
  have aligned := sound.aligned
  simp only [Aligned, at_pc] at aligned
  obtain ⟨here, level, rest⟩ := aligned
  obtain ⟨handed, current, counted, handle, start, stop⟩ :=
    afterFlush_rests worker { segment with bytesSinceFlush := 0 }
  refine ⟨start, stop, afterFlush_sound worker sound here level rest, .control ⟨handed, current, ?_⟩ ?_⟩
  · rw [counted]
    simp [uncounted, at_pc]
  · rw [handle]

/-- A worker without an open handle carries no background write. -/
def Parked (worker : Worker) : Prop := worker.hasHandle = false → worker.handle.flight = none

theorem release_parked (worker : Worker) : worker.release.1.Parked := by
  intro _
  rcases worker.release_cases with ⟨_, released⟩ | ⟨_, _, _, released⟩ <;> rw [released] <;> rfl

theorem fail_parked (carries : worker.handle.flight = none) (error : Error) :
    (worker.fail cfg error).Parked := by
  intro _
  rwa [fail_handle]

theorem afterFlush_parked (worker : Worker) (segment : Segment) : (worker.afterFlush segment).Parked := by
  unfold afterFlush
  split <;> exact fun shut => nomatch shut

/-- Each way out of a segment drops the handle. -/
theorem step_parked {ifRange : Option String} {cancelled : Bool} {next : Worker} {effect : Effect}
    (parked : worker.Parked)
    (taken : worker.step io cfg ifRange cancelled event = some (next, effect)) : next.Parked := by
  have keeps : ∀ pc, worker.hasHandle = false → ({ worker with pc := pc } : Worker).Parked :=
    fun _ shut _ => parked shut
  cases step_move taken with
  | checked at_pc =>
      unfold onHead
      split_ifs <;> exact keeps _ (by simp [hasHandle, at_pc])
  | answered pos response at_pc =>
      have carries := parked (by simp [hasHandle, at_pc])
      unfold onReply
      split_ifs
      · exact fun _ => carries
      · exact fun _ => carries
      · exact fun _ => carries
      · exact fun _ => carries
      · exact fail_parked carries _
  | chunk segment size =>
      unfold onChunk
      dsimp only
      split_ifs <;> exact fun shut => by cases shut
  | counted segment written =>
      unfold onCount
      split_ifs
      · exact fun shut => by cases shut
      · exact afterFlush_parked _ _
  | flushed segment => exact afterFlush_parked _ _
  | opened | ended | stopped | wrote | passed | stored => exact fun shut => by cases shut
  | torn | finished | gaveUp | broken => exact release_parked _
  | refused _ error _ _ shut => exact fail_parked (parked shut) error
  | slept at_pc | interrupted at_pc => exact keeps _ (by simp [hasHandle, at_pc])

/-- Where an ordinary error can end the attempt, the positions are level and all bytes are counted. -/
theorem Sound.fallible (sound : worker.Sound right) (fallible : worker.fallible = true) :
    worker.handed = worker.current ∧ worker.uncounted = 0 := by
  have aligned := sound.aligned
  unfold Worker.fallible at fallible
  split at fallible <;> rename_i at_pc <;> simp only [Aligned, at_pc] at aligned
  · exact ⟨aligned.2.1, by simp [uncounted, at_pc]⟩
  · exact ⟨aligned.2.1, by simp [uncounted, at_pc]⟩
  · exact ⟨aligned.2.1, by simp [uncounted, at_pc]⟩
  · exact ⟨aligned.2.1, by simp [uncounted, at_pc]⟩
  · exact ⟨aligned.1.trans aligned.2.1.symm, by simp [uncounted, at_pc]⟩
  · exact ⟨aligned, by simp [uncounted, at_pc]⟩
  · cases fallible

/-- One step of a sound worker keeps it sound and does one of the listed things. -/
theorem step_facts {ifRange : Option String} {cancelled : Bool} {next : Worker} {effect : Effect}
    (sound : worker.Sound right) (parked : worker.Parked) (answered : worker.Answered right event)
    (taken : worker.step io cfg ifRange cancelled event = some (next, effect)) :
    StepFacts right io worker event next effect := by
  have aligned := sound.aligned
  cases step_move taken with
  | checked at_pc => exact onHead_facts sound at_pc cancelled
  | answered pos response at_pc => exact onReply_facts sound at_pc rfl answered ifRange
  | opened pos body at_pc => exact opened_facts sound at_pc (parked (by simp [hasHandle, at_pc]))
  | chunk segment size at_pc => exact onChunk_facts sound at_pc cancelled size
  | ended segment at_pc | stopped segment at_pc =>
      simp only [Aligned, at_pc] at aligned
      exact jump_facts sound _ aligned.2.1 (by simp [uncounted, at_pc])
  | wrote segment bytes mode at_pc =>
      subst mode
      exact wrote_facts sound at_pc
  | passed segment bytes mode idle at_pc =>
      subst mode
      exact passed_facts sound at_pc idle
  | torn segment bytes kept mode at_pc =>
      subst mode
      exact torn_facts sound at_pc kept
  | stored segment written at_pc => exact store_facts sound at_pc
  | counted segment written at_pc => exact onCount_facts sound at_pc
  | flushed segment at_pc => exact flushed_facts sound at_pc
  | finished at_pc =>
      simp only [Aligned, at_pc] at aligned
      have ended : ({ worker with attempt := 0, pc := .head } : Worker).Sound right :=
        ⟨sound.start_le, sound.current_le, sound.start_le_handed, sound.handed_le, Or.inl aligned⟩
      exact release_facts (by rfl) (by rfl) ended ⟨rfl, rfl, by simp [uncounted, at_pc]⟩ rfl
  | gaveUp ok at_pc =>
      simp only [Aligned, at_pc] at aligned
      have ended : ({ worker with pc := .done (.error .cancelled) } : Worker).Sound right :=
        ⟨sound.start_le, sound.current_le, sound.start_le_handed, sound.handed_le, Or.inl aligned⟩
      exact release_facts (by rfl) (by rfl) ended ⟨rfl, rfl, by simp [uncounted, at_pc]⟩ rfl
  | refused _ error _ fallible =>
      obtain ⟨level, counted⟩ := sound.fallible fallible
      exact fail_facts sound level counted error
  | broken _ error _ fallible =>
      obtain ⟨level, counted⟩ := sound.fallible fallible
      exact fail_release_facts sound level counted error
  | slept at_pc | interrupted at_pc =>
      simp only [Aligned, at_pc] at aligned
      exact jump_facts sound _ (Or.inl aligned) (by simp [uncounted, at_pc])

end Worker

end FastDownloader
