/-
This file proves that each step of a single-thread call keeps to the content that it streams.
-/

import FastDownloader.Proof.SingleThread.Step

namespace FastDownloader

open Foundation

namespace Single

variable {Text : Type} {content : List UInt8} {io : FileIo} {job : Job} {disk : Disk Text} {single : Single}
  {stream : Stream}

/-- A jump to another control point leaves the handle alone. -/
theorem Sound.jump (sound : single.Sound content io job disk) {pc : SinglePc}
    (settled : ({ single with pc := pc } : Single).hasHandle = false → single.handle.flight = none)
    (aligned : ({ single with pc := pc } : Single).Aligned content job disk) :
    ({ single with pc := pc } : Single).Sound content io job disk :=
  ⟨sound.still, settled, aligned⟩

/-- The file counts as complete only when it holds a part of the content. -/
theorem onStat_sound (sound : single.Sound content io job disk) (at_pc : single.pc = .looking) {existing : Nat}
    (measured : 0 < existing → existing = disk.length)
    (complete : ∀ total ∈ job.info.size, total ≤ existing → 0 < existing → ∃ position, disk.Holds content position) :
    (single.onStat job existing).Sound content io job disk := by
  have settled := sound.parked (by simp [hasHandle, at_pc])
  unfold onStat
  split_ifs with full
  · simp only [Bool.and_eq_true, decide_eq_true_eq, Option.any_eq_true] at full
    obtain ⟨⟨total, known, reached⟩, positive⟩ := full
    exact sound.jump (fun _ => settled) (complete total known reached positive)
  · refine sound.jump (fun _ => settled) fun resume => ?_
    simp only [Bool.and_eq_true, decide_eq_true_eq] at resume
    refine ⟨resume.2, measured resume.1, resume.1, fun total known => Nat.lt_of_not_le fun reached => full ?_⟩
    simp [Option.mem_def.mp known, reached, resume.1]

/-- An answer whose whole body is written is a success. -/
theorem success_of_written {resume : Bool} {status : Nat}
    (written : status = 200 ∨ (resume = false ∧ status = 206)) :
    (resume = false ∨ status = 200) ∧ isSuccess status = true := by
  rcases written with rfl | ⟨plain, rfl⟩
  · exact ⟨Or.inr rfl, rfl⟩
  · exact ⟨Or.inl plain, rfl⟩

/-- A successful answer starts a stream of the content that it carries. -/
theorem onReply_sound {earlier : List UInt8} (sound : single.Sound earlier io job disk) {existing : Nat}
    {resume : Bool} {response : Response} (at_pc : single.pc = .sent existing resume)
    (partly : resume = true → response.status = 206 →
      disk.Holds content existing ∧ response.body <+: content.drop existing)
    (whole : response.status = 200 ∨ (resume = false ∧ response.status = 206) → response.body <+: content) :
    (single.onReply job existing resume response).Sound content io job disk := by
  have settled := sound.parked (by simp [hasHandle, at_pc])
  have jump : ∀ pc, ({ single with pc := pc } : Single).Aligned content job disk →
      ({ single with pc := pc } : Single).Sound content io job disk :=
    fun pc aligned => ⟨sound.still, fun _ => settled, aligned⟩
  unfold onReply
  split
  · rename_i status
    obtain ⟨holds, suited⟩ := partly rfl status
    exact jump _ ⟨holds, fun _ => suited⟩
  · rename_i status
    exact jump _ (whole (Or.inl status))
  · rename_i status
    exact jump _ (whole (Or.inr ⟨rfl, status⟩))
  · split_ifs
    · exact jump _ trivial
    · exact fail_sound sound.still settled _ _

/-- A chunk goes on where the stream stands. The write ends at the total. -/
theorem onChunk_sound (sound : single.Sound content io job disk) (at_pc : single.pc = .streaming stream)
    (size : Nat) : (single.onChunk stream size).Sound content io job disk := by
  have aligned := sound.aligned
  simp only [Aligned, at_pc] at aligned
  obtain ⟨filled, ahead⟩ := aligned
  unfold onChunk
  dsimp only
  split_ifs with stopped empty full
  · exact sound.jump nofun ⟨_, filled⟩
  · refine sound.jump nofun ⟨filled, fun more => ?_⟩
    have body := ahead more
    have nothing : stream.body.take size = [] := List.isEmpty_iff.mp empty
    rw [← List.take_append_drop size stream.body, nothing, List.nil_append] at body
    exact body
  · exact sound.jump nofun ⟨_, filled⟩
  · have body := ahead (Bool.eq_false_iff.mpr full)
    rw [← List.take_append_drop size stream.body] at body
    have chunk := (List.prefix_append _ _).trans body
    refine sound.jump nofun ⟨filled, (List.take_prefix _ _).trans chunk, fun more => ?_⟩
    -- The rest of the body goes on behind a whole chunk.
    have uncut := Stream.uncut (Bool.eq_false_iff.mpr full) more
    dsimp only
    rw [uncut]
    exact prefix_drop_drop body

/-- The accepted bytes are the next part of the content. -/
theorem onWrote_sound {bytes : List UInt8} {after : Disk Text} (cfg : DownloaderConfig)
    (still : io = .through → single.handle = .idle ∨ single.handle = .closed)
    (filled : Filled content after single.handle (stream.pos + bytes.length))
    (ahead : ({ stream with pos := stream.pos + bytes.length } : Stream).Ahead content) :
    (single.onWrote cfg stream bytes).Sound content io job after := by
  unfold onWrote
  dsimp only
  split_ifs
  · exact ⟨still, nofun, filled, ahead⟩
  · exact ⟨still, nofun, filled, ahead⟩

/-- A call whose writes take effect at once has nothing under way. -/
theorem Sound.through (sound : single.Sound content .through job disk) {position : Nat} {after : Disk Text} :
    Filled content after single.handle position ↔ after.Holds content position := by
  rcases sound.still rfl with same | same <;> rw [same] <;> rfl

/-- A closed attempt of unknown length is over. Any other one is measured or fails. -/
theorem onClosed_sound (sound : single.Sound content io job disk) {total : Option Nat}
    {result : Except Error Unit} (at_pc : single.pc = .closing total result) {after : Disk Text}
    (contents : after.contents = disk.contents) (settled : single.handle.flight = none) :
    (single.onClosed job.cfg total result).Sound content io job after := by
  have aligned := sound.aligned
  simp only [Aligned, at_pc] at aligned
  obtain ⟨position, filled⟩ := aligned
  obtain ⟨reached, holds⟩ := (filled.congr contents).holds settled
  unfold onClosed
  dsimp only
  split
  · exact fail_sound (fun _ => Or.inr rfl) rfl _ _
  · exact ⟨fun _ => Or.inr rfl, fun _ => rfl, reached, holds⟩
  · exact ⟨fun _ => Or.inr rfl, fun _ => rfl, reached, holds⟩

theorem onMeasured_sound (sound : single.Sound content io job disk) {total : Nat}
    (at_pc : single.pc = .measuring total) (onDisk : Nat) :
    (single.onMeasured job.cfg total onDisk).Sound content io job disk := by
  have settled := sound.parked (by simp [hasHandle, at_pc])
  have aligned := sound.aligned
  simp only [Aligned, at_pc] at aligned
  unfold onMeasured
  split_ifs
  · exact fail_sound sound.still settled _ _
  · exact sound.jump (fun _ => settled) aligned

/-- A handle that carries a write is open. -/
theorem Sound.opened (sound : single.Sound content io job disk) (under_way : single.handle.flight ≠ none) :
    single.hasHandle = true := by
  by_contra shut
  exact under_way (sound.parked (Bool.eq_false_iff.mpr shut))

/-- An open handle stands behind a part of the content. -/
theorem Sound.filled (sound : single.Sound content io job disk) (opened : single.hasHandle = true) :
    ∃ position, Filled content disk single.handle position := by
  have aligned := sound.aligned
  unfold hasHandle at opened
  split at opened <;> rename_i at_pc <;> simp only [Aligned, at_pc] at aligned
  · exact ⟨_, aligned.1⟩
  · exact ⟨_, aligned.1⟩
  · exact ⟨_, aligned.1⟩
  · exact ⟨_, aligned.1⟩
  · exact aligned
  · cases opened

/-- The background write carries the next part of the content. -/
theorem Sound.carried (sound : single.Sound content io job disk) {offset : Nat} {bytes : List UInt8}
    (held : single.handle = .busy offset bytes) :
    io = .background ∧ disk.Holds content offset ∧ bytes <+: content.drop offset := by
  obtain ⟨position, filled⟩ := sound.filled (sound.opened (by simp [held, Handle.flight]))
  rw [held] at filled
  obtain ⟨holds, -, suited⟩ := filled
  refine ⟨?_, holds, suited⟩
  cases io with
  | background => rfl
  | through => rcases sound.still rfl with same | same <;> simp [held] at same

/-- A background write that ends keeps the call to its content. -/
theorem Sound.rehandle (sound : single.Sound content io job disk) {after : Disk Text} {handle : Handle}
    {offset : Nat} {bytes : List UInt8} (held : single.handle = .busy offset bytes) (free : handle.flight = none)
    (moved : ∀ position, Filled content disk (.busy offset bytes) position → Filled content after handle position) :
    ({ single with handle := handle } : Single).Sound content io job after := by
  have aligned := sound.aligned
  have opened := sound.opened (by simp [held, Handle.flight])
  rw [← held] at moved
  refine ⟨by simp [(sound.carried held).1], fun _ => free, ?_⟩
  unfold hasHandle at opened
  split at opened <;> rename_i at_pc
  · simp only [Aligned, at_pc] at aligned ⊢
    exact ⟨moved _ aligned.1, aligned.2⟩
  · simp only [Aligned, at_pc] at aligned ⊢
    exact ⟨moved _ aligned.1, aligned.2⟩
  · simp only [Aligned, at_pc] at aligned ⊢
    exact ⟨moved _ aligned.1, aligned.2⟩
  · simp only [Aligned, at_pc] at aligned ⊢
    exact ⟨moved _ aligned.1, aligned.2⟩
  · simp only [Aligned, at_pc] at aligned ⊢
    obtain ⟨position, filled⟩ := aligned
    exact ⟨position, moved _ filled⟩
  · cases opened

/-- A step that leaves the file alone. -/
theorem Touched.rest (event : SingleEvent) : Touched content disk single event disk := .kept event disk rfl rfl

theorem Touched.sync (event : SingleEvent) : Touched content disk single event disk.sync :=
  .kept event _ Disk.contents_sync rfl

/-- Each step of the call except an answer keeps to the content, and the file grows along it or is truncated. -/
theorem Sound.step (sound : single.Sound content io job disk) {event : SingleEvent}
    (unanswered : ∀ response, event ≠ .reply (some response))
    (complete : event = .stat true → ∀ total ∈ job.info.size, total ≤ disk.length → 0 < disk.length →
      ∃ position, disk.Holds content position)
    {next : Disk Text × Single} (taken : Single.step io job (disk, single) event = some next) :
    next.2.Sound content io job next.1 ∧ Touched content disk single event next.1 := by
  have aligned := sound.aligned
  have move := step_move taken
  generalize next.1 = after at move ⊢
  generalize next.2 = moved at move ⊢
  cases move with
  | cancelled => exact ⟨⟨sound.still, sound.parked, sound.aligned⟩, .rest _⟩
  | landed offset bytes held =>
      obtain ⟨-, holds, suited⟩ := sound.carried held
      exact ⟨sound.rehandle held rfl fun _ => Filled.land, .extended _ _ _ holds suited⟩
  | lost kept offset bytes held =>
      obtain ⟨-, holds, suited⟩ := sound.carried held
      exact ⟨sound.rehandle held rfl fun _ filled => filled.lose kept,
        .extended _ _ _ holds ((List.take_prefix kept _).trans suited)⟩
  | stopped at_pc | began at_pc =>
      exact ⟨sound.jump (fun _ => sound.parked (by simp [hasHandle, at_pc])) trivial, .rest _⟩
  | looked readable at_pc =>
      refine ⟨onStat_sound sound at_pc ?_ ?_, .rest _⟩
      · cases readable <;> simp
      · cases readable with
        | true => exact complete rfl
        | false => exact fun _ _ _ positive => absurd positive (by simp)
  | answered existing resume response => exact absurd rfl (unanswered response)
  | created total body at_pc =>
      have settled := sound.parked (by simp [hasHandle, at_pc])
      simp only [Aligned, at_pc] at aligned
      exact ⟨⟨sound.still, fun _ => settled, ⟨[], rfl, rfl, List.nil_prefix⟩, fun _ => aligned⟩,
        .truncated total body at_pc⟩
  | opened stream at_pc =>
      simp only [Aligned, at_pc] at aligned
      obtain ⟨⟨held, present, reached, start⟩, ahead⟩ := aligned
      have same : disk.openCreate.contents = some held := by rw [Disk.contents_openCreate, present, Option.getD_some]
      exact ⟨⟨fun _ => Or.inl rfl, by rintro ⟨⟩, ⟨held, same, reached, start⟩, ahead⟩,
        .kept _ _ (same.trans present.symm) rfl⟩
  | chunk stream size at_pc => exact ⟨onChunk_sound sound at_pc size, .rest _⟩
  | ended stream at_pc => exact ⟨sound.jump (by rintro ⟨⟩) (sound.filled (by simp [hasHandle, at_pc])), .rest _⟩
  | wrote stream bytes mode at_pc =>
      subst mode
      simp only [Aligned, at_pc] at aligned
      obtain ⟨filled, suited, ahead⟩ := aligned
      have holds := sound.through.mp filled
      exact ⟨onWrote_sound job.cfg sound.still (sound.through.mpr (holds.write suited)) ahead,
        .extended _ _ _ holds suited⟩
  | passed stream bytes mode idle at_pc =>
      subst mode
      simp only [Aligned, at_pc] at aligned
      obtain ⟨filled, suited, ahead⟩ := aligned
      rw [idle] at filled
      exact ⟨onWrote_sound job.cfg (by rintro ⟨⟩) ⟨filled, rfl, suited⟩ ahead, .rest _⟩
  | torn stream bytes kept mode at_pc =>
      subst mode
      simp only [Aligned, at_pc] at aligned
      obtain ⟨filled, suited, -⟩ := aligned
      have holds := sound.through.mp filled
      have torn := (List.take_prefix kept bytes).trans suited
      exact ⟨⟨sound.still, by rintro ⟨⟩, _, sound.through.mpr (holds.write torn)⟩, .extended _ _ _ holds torn⟩
  | flushed stream at_pc =>
      simp only [Aligned, at_pc] at aligned
      refine ⟨?_, .rest _⟩
      unfold onFlushed
      split_ifs
      · exact sound.jump (by rintro ⟨⟩) aligned
      · exact sound.jump (by rintro ⟨⟩) aligned
  | synced stream at_pc =>
      simp only [Aligned, at_pc] at aligned
      exact ⟨⟨sound.still, by rintro ⟨⟩, aligned.1.congr Disk.contents_sync, aligned.2⟩, .sync _⟩
  | broken _ total error _ opened => exact ⟨sound.jump (by rintro ⟨⟩) (sound.filled opened), .rest _⟩
  | closed total result synced at_pc settled =>
      have free : single.handle.flight = none := by
        cases held : single.handle with
        | busy => simp [Single.settled, held, (sound.carried held).1] at settled
        | closed | idle | failed => rfl
      cases synced with
      | true => exact ⟨onClosed_sound sound at_pc Disk.contents_sync free, .sync _⟩
      | false => exact ⟨onClosed_sound sound at_pc rfl free, .rest _⟩
  | measured total at_pc => exact ⟨onMeasured_sound sound at_pc _, .rest _⟩
  | failed _ error _ shut => exact ⟨fail_sound sound.still (sound.parked shut) job.cfg error, .rest _⟩
  | slept at_pc => exact ⟨sound.jump (fun _ => sound.parked (by simp [hasHandle, at_pc])) trivial, .rest _⟩
  | interrupted shut => exact ⟨sound.jump (fun _ => sound.parked shut) trivial, .rest _⟩

/-- Only a sent request is answered. -/
theorem step_reply {response : Response} {next : Disk Text × Single}
    (taken : Single.step io job (disk, single) (.reply (some response)) = some next) :
    ∃ existing resume, single.pc = .sent existing resume ∧
      next = (disk, single.onReply job existing resume response) := by
  cases at_pc : single.pc with
  | sent existing resume =>
      simp only [Single.step, at_pc, Option.some.injEq] at taken
      exact ⟨existing, resume, rfl, taken.symm⟩
  | _ => simp [Single.step, at_pc] at taken

/-- Only the start of an attempt looks at the length of the file. -/
theorem step_stat {readable : Bool} {next : Disk Text × Single}
    (taken : Single.step io job (disk, single) (.stat readable) = some next) :
    single.pc = .looking ∧ next = (disk, single.onStat job (if readable then disk.length else 0)) := by
  cases at_pc : single.pc with
  | looking =>
      simp only [Single.step, at_pc, Option.some.injEq] at taken
      exact ⟨rfl, taken.symm⟩
  | _ => simp [Single.step, at_pc] at taken

/-- A call that has returned does nothing more. -/
theorem Sound.returned_step (sound : single.Sound content io job disk) {result : Except Error Unit}
    (ended : single.pc = .returned result) {event : SingleEvent} {next : Disk Text × Single}
    (taken : Single.step io job (disk, single) event = some next) :
    next.1 = disk ∧ next.2.pc = .returned result := by
  have settled := sound.parked (by simp [hasHandle, ended])
  cases event with
  | cancel =>
      simp only [Single.step, Option.some.injEq] at taken
      exact taken ▸ ⟨rfl, ended⟩
  | land | lose =>
      cases held : single.handle with
      | busy => simp [held, Handle.flight] at settled
      | closed | idle | failed => simp [Single.step, held] at taken
  | _ => simp [Single.step, ended] at taken

end Single

end FastDownloader
