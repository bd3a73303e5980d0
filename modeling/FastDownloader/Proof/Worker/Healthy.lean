/-
This file proves that a worker which meets no fault goes on to the end of its range.
-/

import FastDownloader.Proof.Worker.Step

namespace FastDownloader

namespace Worker

/-- The number of bytes that the next chunk can have. -/
def unread (worker : Worker) : Nat :=
  match worker.pc with
  | .streaming segment => segment.body.length
  | _ => 0

/-- Nothing fails, nothing is cancelled, and the server sends exactly the asked range. -/
def Faultless (content : List UInt8) (worker : Worker) : WorkerEvent → Prop
  | .reply (some response) => ∀ pos ∈ worker.requested,
      response.status = 206 ∧ response.body = (content.drop pos).take (worker.stop - pos)
  | .opened ok | .flushed ok => ok = true
  | .chunk size => size ≤ worker.unread
  | .check | .streamEnd | .wrote | .store | .count => True
  | .reply none | .streamError | .writeFailed _ | .slept | .interrupted => False

/-- Each control point fixes how many bytes of the range the body still has. -/
def Fed (worker : Worker) : Prop :=
  match worker.pc with
  | .skipped | .sent _ => True
  | .head => worker.handed = worker.current
  | .opening pos body => body.length = worker.stop - pos
  | .streaming segment | .storing segment _ | .counting segment _ | .flushing segment =>
      segment.body.length = worker.stop - segment.pos
  | .writing segment bytes => segment.body.length = worker.stop - (segment.pos + bytes.length)
  | .finishing => worker.current = worker.stop
  | .done (.ok ()) => worker.handed = worker.stop
  | .cancelling | .waiting | .done (.error _) => False

/-- A worker without a fault is fed, and its open handle is idle or carries one background write. -/
structure Healthy (worker : Worker) : Prop where
  fed : worker.Fed
  intact : worker.handle ≠ .failed
  opened : worker.hasHandle = true → worker.handle ≠ .closed

/-- The rank counts the missing bytes first and then the control points that are left. -/
def rank (worker : Worker) : Nat :=
  worker.handle.flights + match worker.pc with
  | .head => if worker.current < worker.stop then 8 * (worker.stop - worker.current) + 60 else 4
  | .sent _ => 8 * (worker.stop - worker.current) + 50
  | .opening _ body => 8 * body.length + 40
  | .streaming segment => 8 * segment.body.length + 20
  | .writing segment _ => 8 * segment.body.length + 26
  | .storing segment _ => 8 * segment.body.length + 24
  | .counting segment _ => 8 * segment.body.length + 23
  | .flushing segment => 8 * segment.body.length + 22
  | .finishing => 10
  | _ => 0

variable {content : List UInt8} {right : Nat → UInt8 → Prop} {io : FileIo} {cfg : DownloaderConfig}
  {ifRange : Option String} {worker next : Worker} {event : WorkerEvent} {effect : Effect}

/-- What a step without a fault does. -/
structure Advances (worker : Worker) (event : WorkerEvent) (next : Worker) (effect : Effect) : Prop where
  healthy : next.Healthy
  kept : ∀ offset bytes, effect ≠ .orphan offset bytes
  falls : next.rank < worker.rank ∨ (event = .chunk 0 ∧ next.rank ≤ worker.rank)

theorem Faultless.no_fault (faultless : worker.Faultless content event) : event.fault ≠ true := by
  unfold WorkerEvent.fault
  split
  all_goals first | exact Bool.false_ne_true | cases faultless

/-- A jump that keeps the handle falls when its own part of the rank does. -/
theorem Advances.jump (healthy : worker.Healthy) {pc : WorkerPc} (quiet : ∀ offset bytes, effect ≠ .orphan offset bytes)
    (fed : ({ worker with pc := pc } : Worker).Fed)
    (held : ({ worker with pc := pc } : Worker).hasHandle = true → worker.hasHandle = true)
    (falls : ({ worker with pc := pc } : Worker).rank < worker.rank) :
    Advances worker event { worker with pc := pc } effect :=
  ⟨⟨fed, healthy.intact, fun has => healthy.opened (held has)⟩, quiet, Or.inl falls⟩

theorem onHead_advances (sound : worker.Sound right) (healthy : worker.Healthy) (at_pc : worker.pc = .head) :
    Advances worker event (worker.onHead false) .none := by
  have fed := healthy.fed
  have reached := sound.current_le
  simp only [Fed, at_pc] at fed
  unfold onHead
  rw [if_neg Bool.false_ne_true]
  split_ifs with more
  · exact .jump healthy nofun trivial nofun (by simp only [rank, at_pc, if_pos more]; omega)
  · refine .jump healthy nofun ?_ nofun (by simp only [rank, at_pc, if_neg more]; omega)
    change worker.handed = worker.stop
    omega

theorem onReply_advances {pos : Nat} (sound : worker.Sound right) (healthy : worker.Healthy)
    (at_pc : worker.pc = .sent pos) (inside : worker.stop ≤ content.length) {response : Response}
    (faultless : worker.Faultless content (.reply (some response))) :
    Advances worker event (worker.onReply cfg ifRange pos response) .none := by
  have aligned := sound.aligned
  simp only [Aligned, at_pc] at aligned
  obtain ⟨status, body⟩ := faultless pos (by simp [requested, at_pc])
  have length : response.body.length = worker.stop - pos := by
    rw [body, List.length_take, List.length_drop]
    omega
  unfold onReply
  rw [if_pos status]
  refine .jump healthy (by rintro _ _ ⟨⟩) length (by rintro ⟨⟩) ?_
  simp only [rank, at_pc, length, aligned.1]
  omega

theorem onChunk_advances {segment : Segment} (sound : worker.Sound right) (healthy : worker.Healthy)
    (at_pc : worker.pc = .streaming segment) {size : Nat} (piece : size ≤ segment.body.length) :
    Advances worker (.chunk size) (worker.onChunk false segment size) .none := by
  have fed := healthy.fed
  have aligned := sound.aligned
  simp only [Fed, at_pc] at fed
  simp only [Aligned, at_pc] at aligned
  have keeps : worker.hasHandle = true := by simp [hasHandle, at_pc]
  have taken : (segment.body.take size).length = size := by
    rw [List.length_take]
    omega
  unfold onChunk
  rw [if_neg Bool.false_ne_true]
  dsimp only
  rw [taken]
  have uncut : worker.writeLen segment.pos size = size := by
    unfold writeLen
    rw [if_neg (by omega)]
  rw [uncut]
  split_ifs with empty
  · subst empty
    refine ⟨⟨?_, healthy.intact, fun _ => healthy.opened keeps⟩, by rintro _ _ ⟨⟩, Or.inr ⟨rfl, ?_⟩⟩
    · exact fed
    · simp [rank, at_pc]
  · refine .jump healthy (by rintro _ _ ⟨⟩) ?_ (fun _ => keeps) ?_
    · change (segment.body.drop size).length =
        worker.stop - (segment.pos + ((segment.body.take size).take size).length)
      rw [List.length_drop, List.length_take, taken, Nat.min_self]
      omega
    · simp only [rank, at_pc, List.length_drop]
      omega

theorem onWrote_advances {segment : Segment} {bytes : List UInt8} (healthy : worker.Healthy)
    (at_pc : worker.pc = .writing segment bytes) {handle : Handle}
    (opened : handle ≠ .failed ∧ handle ≠ .closed) (light : handle.flights ≤ worker.handle.flights + 1)
    (quiet : ∀ offset bytes, effect ≠ .orphan offset bytes) :
    Advances worker .wrote { worker.onWrote segment bytes with handle := handle } effect := by
  have fed := healthy.fed
  simp only [Fed, at_pc] at fed
  refine ⟨⟨fed, opened.1, fun _ => opened.2⟩, quiet, Or.inl ?_⟩
  simp only [rank, at_pc, onWrote]
  omega

theorem afterFlush_advances {segment : Segment} (healthy : worker.Healthy) (keeps : worker.hasHandle = true)
    (here : segment.pos = worker.current) (within : worker.current ≤ worker.stop)
    (fed : segment.body.length = worker.stop - segment.pos) (quiet : ∀ offset bytes, effect ≠ .orphan offset bytes)
    (falls : worker.handle.flights + 8 * segment.body.length + 20 < worker.rank) :
    Advances worker event (worker.afterFlush segment) effect := by
  unfold afterFlush
  split_ifs with ended
  · refine .jump healthy quiet ?_ (fun _ => keeps) ?_
    · change worker.current = worker.stop
      omega
    · simp only [rank] at falls ⊢
      omega
  · refine .jump healthy quiet fed (fun _ => keeps) ?_
    simp only [rank] at falls ⊢
    omega

/-- A flush that reports success has waited for the background write. -/
theorem free_of_reports (still : io = .through → worker.handle.flight = none)
    (reports : flushReports io worker.handle true = true) : worker.handle.flight = none := by
  cases io with
  | through => exact still rfl
  | background =>
      cases held : worker.handle with
      | busy => simp [flushReports, held] at reports
      | closed | idle | failed => rfl

/-- Each step without a fault keeps the worker healthy and lowers the rank, except for an empty chunk. -/
theorem step_advances (sound : worker.Sound right) (healthy : worker.Healthy)
    (still : io = .through → worker.handle.flight = none) (inside : worker.stop ≤ content.length)
    (faultless : worker.Faultless content event)
    (taken : worker.step io cfg ifRange false event = some (next, effect)) :
    Advances worker event next effect := by
  have aligned := sound.aligned
  have fed := healthy.fed
  cases step_move taken with
  | torn | stopped | slept | interrupted => cases faultless
  | refused _ error fault | broken _ error fault => exact absurd fault faultless.no_fault
  | checked at_pc => exact onHead_advances sound healthy at_pc
  | answered pos response at_pc => exact onReply_advances sound healthy at_pc inside faultless
  | opened pos body at_pc =>
      simp only [Fed, at_pc] at fed
      have light : Handle.flights .idle = 0 := rfl
      refine ⟨⟨fed, by rintro ⟨⟩, fun _ => by rintro ⟨⟩⟩, by rintro _ _ ⟨⟩, Or.inl ?_⟩
      simp only [rank, at_pc, light]
      omega
  | chunk segment size at_pc =>
      have piece := faultless
      simp only [Faultless, unread, at_pc] at piece
      exact onChunk_advances sound healthy at_pc piece
  | ended segment at_pc empty =>
      -- The body of a healthy stream is not empty before its end.
      simp only [Fed, Aligned, at_pc] at fed aligned
      rw [empty, List.length_nil] at fed
      omega
  | wrote segment bytes mode at_pc =>
      have keeps : worker.hasHandle = true := by simp [hasHandle, at_pc]
      exact onWrote_advances healthy at_pc ⟨healthy.intact, healthy.opened keeps⟩ (Nat.le_succ _) (by rintro _ _ ⟨⟩)
  | passed segment bytes mode idle at_pc =>
      exact onWrote_advances healthy at_pc ⟨by rintro ⟨⟩, by rintro ⟨⟩⟩
        (by unfold Handle.flights; split_ifs <;> omega) (by rintro _ _ ⟨⟩)
  | stored segment written at_pc =>
      have keeps : worker.hasHandle = true := by simp [hasHandle, at_pc]
      simp only [Fed, at_pc] at fed
      refine ⟨⟨fed, healthy.intact, fun _ => healthy.opened keeps⟩, by rintro _ _ ⟨⟩, Or.inl ?_⟩
      simp only [rank, at_pc]
      omega
  | counted segment written at_pc =>
      have keeps : worker.hasHandle = true := by simp [hasHandle, at_pc]
      have within := sound.current_le
      simp only [Fed, Aligned, at_pc] at fed aligned
      unfold onCount
      split_ifs
      · exact .jump healthy (by rintro _ _ ⟨⟩) fed (fun _ => keeps) (by simp only [rank, at_pc]; omega)
      · exact afterFlush_advances healthy keeps aligned.2.1.symm within fed
          (by rintro _ _ ⟨⟩) (by simp only [rank, at_pc]; omega)
  | flushed segment at_pc =>
      have keeps : worker.hasHandle = true := by simp [hasHandle, at_pc]
      have within := sound.current_le
      simp only [Fed, Aligned, at_pc] at fed aligned
      exact afterFlush_advances healthy keeps aligned.2.1.symm within fed
        (by rintro _ _ ⟨⟩) (by simp only [rank, at_pc]; omega)
  | finished at_pc reports =>
      simp only [Fed, Aligned, at_pc] at fed aligned
      have free := free_of_reports still reports
      rcases ({ worker with attempt := 0, pc := .head } : Worker).release_cases with
        ⟨_, released⟩ | ⟨_, _, carried, _⟩
      · rw [released]
        refine ⟨⟨aligned, by rintro ⟨⟩, by rintro ⟨⟩⟩, by rintro _ _ ⟨⟩, Or.inl ?_⟩
        have light : Handle.flights .closed = 0 := rfl
        simp only [rank, at_pc, fed, Nat.lt_irrefl, if_false, light]
        omega
      · cases free.symm.trans carried
  | gaveUp ok at_pc => simp only [Fed, at_pc] at fed

/-- A healthy worker that has not ended can go on, unless its background write has to land first. -/
theorem Healthy.moves (healthy : worker.Healthy) (pending : worker.finished = false)
    (landed : worker.handle.flight = none) :
    ∃ event, worker.Faultless content event ∧ event ≠ .chunk 0 ∧
      (worker.step io cfg ifRange false event).isSome = true := by
  have fed := healthy.fed
  have idle : worker.hasHandle = true → worker.handle = .idle := by
    intro keeps
    cases held : worker.handle with
    | busy => simp [held, Handle.flight] at landed
    | idle => rfl
    | failed => exact absurd held healthy.intact
    | closed => exact absurd held (healthy.opened keeps)
  cases at_pc : worker.pc with
  | skipped | done => simp [finished, at_pc] at pending
  | head => exact ⟨.check, trivial, by rintro ⟨⟩, by simp [step, at_pc]⟩
  | sent pos =>
      refine ⟨.reply (some ⟨206, none, none, (content.drop pos).take (worker.stop - pos)⟩), ?_, by rintro ⟨⟩,
        by simp [step, at_pc]⟩
      intro other asked
      obtain rfl : pos = other := by simpa [requested, at_pc] using asked
      exact ⟨rfl, rfl⟩
  | opening => exact ⟨.opened true, rfl, by rintro ⟨⟩, by simp [step, at_pc]⟩
  | streaming segment =>
      by_cases ended : segment.body = []
      · exact ⟨.streamEnd, trivial, by rintro ⟨⟩, by simp [step, at_pc, ended]⟩
      · refine ⟨.chunk segment.body.length, ?_, by simp [ended], by simp [step, at_pc]⟩
        simp [Faultless, unread, at_pc]
  | writing =>
      have free := idle (by simp [hasHandle, at_pc])
      exact ⟨.wrote, trivial, by rintro ⟨⟩, by cases io <;> simp [step, at_pc, free]⟩
  | storing => exact ⟨.store, trivial, by rintro ⟨⟩, by simp [step, at_pc]⟩
  | counting => exact ⟨.count, trivial, by rintro ⟨⟩, by simp [step, at_pc]⟩
  | flushing =>
      have free := idle (by simp [hasHandle, at_pc])
      exact ⟨.flushed true, rfl, by rintro ⟨⟩, by cases io <;> simp [step, at_pc, free, flushReports]⟩
  | finishing =>
      have free := idle (by simp [hasHandle, at_pc])
      exact ⟨.flushed true, rfl, by rintro ⟨⟩, by cases io <;> simp [step, at_pc, free, flushReports]⟩
  | cancelling | waiting => simp [Fed, at_pc] at fed

/-- A healthy worker that has ended has returned without an error and has handed over its whole range. -/
theorem Healthy.ended (healthy : worker.Healthy) (sound : worker.Sound right) (finished : worker.finished = true) :
    (worker.pc = .skipped ∨ worker.pc = .done (.ok ())) ∧ worker.handed = worker.stop := by
  have fed := healthy.fed
  have aligned := sound.aligned
  have lower := sound.start_le_handed
  have upper := sound.handed_le
  cases at_pc : worker.pc with
  | skipped =>
      simp only [Aligned, at_pc] at aligned
      exact ⟨Or.inl rfl, by omega⟩
  | done result =>
      cases result with
      | error error => simp [Fed, at_pc] at fed
      | ok =>
          simp only [Fed, at_pc] at fed
          exact ⟨Or.inr rfl, fed⟩
  | _ => simp [Worker.finished, at_pc] at finished

theorem spawn_healthy (range : WorkerRange) : (spawn range).Healthy where
  fed := by
    unfold Fed spawn
    split_ifs
    · trivial
    · rfl
  intact := nofun
  opened := by
    unfold hasHandle spawn
    split_ifs <;> nofun

end Worker

end FastDownloader
