/-
This file proves that a single-thread call returns without an error only when it has brought the whole content.
-/

import FastDownloader.Proof.SingleThread.Attempt

namespace FastDownloader

open Foundation

/-- All that is missing behind the position is in the body, and a known total is that of the content. -/
structure Stream.Rest (content : List UInt8) (stream : Stream) : Prop where
  body : stream.body = content.drop stream.pos
  total : ∀ total ∈ stream.total, total = content.length

/-- A body without an error is the content from the asked position on, or all of it. The lengths that a header
gives are right. -/
def Single.Honest (content : List UInt8) (single : Single) : SingleEvent → Prop
  | .reply (some response) => ∀ request ∈ single.requested,
      (response.status = 206 → response.body = content.drop (if request.2 then request.1 else 0) ∧
        ∀ total ∈ response.rangeTotal, total = content.length) ∧
      (response.status = 200 → response.body = content ∧ ∀ total ∈ response.lengthTotal, total = content.length)
  | _ => True

instance (content : List UInt8) (single : Single) : ∀ event, Decidable (single.Honest content event)
  | .reply (some _) => inferInstanceAs (Decidable (∀ request ∈ single.requested, (_ → _ ∧ ∀ total ∈ _, _) ∧
      (_ → _ ∧ ∀ total ∈ _, _)))
  | .reply none | .cancel | .check | .stat _ | .created _ | .opened _ | .chunk _ | .streamEnd | .streamError | .wrote
  | .writeFailed _ | .land | .lose _ | .flushed _ | .synced _ | .closed _ | .measured _ | .slept | .interrupted =>
      .isTrue trivial

namespace Single

variable {Text : Type} {content : List UInt8} {io : FileIo} {job : Job} {disk : Disk Text} {single : Single}
  {stream : Stream}

/-- Each control point fixes what is still to come. Nothing is left once an attempt ends without an error. -/
def Whole (content : List UInt8) (disk : Disk Text) (single : Single) : Prop :=
  match single.pc with
  | .creating total body => body = content ∧ ∀ known ∈ total, known = content.length
  | .opening stream | .streaming stream | .flushing stream | .syncing stream => stream.Rest content
  | .writing stream bytes => ({ stream with pos := stream.pos + bytes.length } : Stream).Rest content
  | .closing total (.ok ()) =>
      Filled content disk single.handle content.length ∧ ∀ known ∈ total, known = content.length
  | .measuring total => disk.contents = some content ∧ total = content.length
  | .returned (.ok ()) => disk.contents = some content
  | _ => True

theorem start_whole (content : List UInt8) (disk : Disk Text) (cancelled : Bool) :
    (Single.start cancelled).Whole content disk := trivial

/-- A failed attempt promises nothing. -/
theorem fail_whole (cfg : DownloaderConfig) (error : Error) : (single.fail cfg error).Whole content disk := by
  unfold fail
  split
  · trivial
  · dsimp only
    split <;> trivial

/-- A part that reaches the length of the content is the content. -/
theorem contents_of_reached {position : Nat} (holds : disk.Holds content position)
    (reached : content.length ≤ position) : disk.contents = some content := by
  obtain ⟨held, present, rfl, start⟩ := holds
  rw [present, start.eq_of_length_le reached]

/-- A handle that has lost nothing stands at the end of the content once it has reached its length. -/
theorem Filled.reached {handle : Handle} {position : Nat} (filled : Filled content disk handle position)
    (intact : handle ≠ .failed) (reached : content.length ≤ position) :
    Filled content disk handle content.length := by
  cases handle with
  | busy offset bytes =>
      obtain ⟨⟨held, present, rfl, start⟩, rfl, suited⟩ := filled
      have behind := suited.length_le
      have before := start.length_le
      rw [List.length_drop] at behind
      exact ⟨⟨held, present, rfl, start⟩, by omega, suited⟩
  | failed => exact absurd rfl intact
  | idle | closed =>
      obtain ⟨held, present, rfl, start⟩ := filled
      exact ⟨held, present, congrArg List.length (start.eq_of_length_le reached), start⟩

/-- A file that holds as many bytes as the content is the content. -/
theorem contents_of_holds (holds : disk.Holds content content.length) : disk.contents = some content :=
  contents_of_reached holds (Nat.le_refl _)

theorem onStat_whole {existing : Nat}
    (complete : ∀ total ∈ job.info.size, total ≤ existing → 0 < existing → disk.contents = some content) :
    (single.onStat job existing).Whole content disk := by
  unfold onStat
  split_ifs with full
  · simp only [Bool.and_eq_true, decide_eq_true_eq, Option.any_eq_true] at full
    obtain ⟨⟨total, known, reached⟩, positive⟩ := full
    exact complete total known reached positive
  · trivial

/-- An honest answer brings all that is missing, whichever of the three totals the stream takes. -/
theorem onReply_whole {existing : Nat} {resume : Bool} {response : Response}
    (at_pc : single.pc = .sent existing resume) (size : ∀ total ∈ job.info.size, total = content.length)
    (honest : single.Honest content (.reply (some response))) :
    (single.onReply job existing resume response).Whole content disk := by
  obtain ⟨partly, whole⟩ := honest (existing, resume) (by simp [requested, at_pc])
  have either : ∀ given : Option Nat, (∀ total ∈ given, total = content.length) →
      ∀ total ∈ given.or job.info.size, total = content.length := by
    intro given right total known
    cases given with
    | none => exact size total (by simpa using known)
    | some value => exact right total (by simpa using known)
  unfold onReply
  split
  · rename_i status
    obtain ⟨body, total⟩ := partly status
    exact ⟨body, either _ total⟩
  · rename_i status
    obtain ⟨body, total⟩ := whole status
    exact ⟨body, either _ total⟩
  · rename_i status
    exact ⟨(partly status).1, size⟩
  · split_ifs
    · trivial
    · exact fail_whole _ _

/-- An honest stream is never cut, so the rest of its body goes on behind a written chunk. -/
theorem onChunk_whole (filled : Filled content disk single.handle stream.pos) (intact : single.handle ≠ .failed)
    (rest : stream.Rest content) (size : Nat) :
    (single.onChunk stream size).Whole content disk := by
  obtain ⟨body, totals⟩ := rest
  unfold onChunk
  dsimp only
  split_ifs with stopped empty full
  · trivial
  · refine ⟨?_, totals⟩
    have nothing : stream.body.take size = [] := List.isEmpty_iff.mp empty
    have same := List.take_append_drop size stream.body
    rw [nothing, List.nil_append] at same
    exact same.trans body
  · unfold Stream.full at full
    obtain ⟨total, known, reached⟩ := Option.any_eq_true _ _ |>.mp full
    exact ⟨filled.reached intact (totals total known ▸ by simpa using reached), totals⟩
  · have uncut : (stream.body.take size).take (stream.writeLen (stream.body.take size).length) =
        stream.body.take size := by
      refine List.take_of_length_le ?_
      unfold Stream.writeLen
      cases known : stream.total with
      | none => exact Nat.le_refl _
      | some total =>
          have same := totals total known
          rw [body]
          simp only [List.length_take, List.length_drop]
          omega
    refine ⟨?_, totals⟩
    dsimp only
    rw [uncut, ← List.drop_drop, ← body]
    by_cases short : size ≤ stream.body.length
    · rw [List.length_take, Nat.min_eq_left short]
    · rw [List.take_of_length_le (by omega), List.drop_length, List.drop_eq_nil_of_le (by omega)]

/-- Accepted bytes move the position behind them. -/
theorem onWrote_whole {bytes : List UInt8} {after : Disk Text} (cfg : DownloaderConfig)
    (rest : ({ stream with pos := stream.pos + bytes.length } : Stream).Rest content) :
    (single.onWrote cfg stream bytes).Whole content after := by
  unfold onWrote
  dsimp only
  split_ifs
  · exact ⟨rest.body, rest.total⟩
  · exact ⟨rest.body, rest.total⟩

/-- An attempt that ends without an error has nothing under way any more, so the file holds the content. -/
theorem Whole.onClosed (whole : single.Whole content disk) (sound : single.Sound content io job disk)
    {total : Option Nat} {result : Except Error Unit} (at_pc : single.pc = .closing total result)
    (intact : single.handle ≠ .failed) (settled : Single.settled io single.handle = true) {after : Disk Text}
    (contents : after.contents = disk.contents) : (single.onClosed job.cfg total result).Whole content after := by
  unfold Single.onClosed
  cases result with
  | error error => exact fail_whole _ _
  | ok =>
      simp only [Whole, at_pc] at whole
      have finished : after.contents = some content := by
        rw [contents]
        cases held : single.handle with
        | busy => simp [Single.settled, held, (sound.carried held).1] at settled
        | failed => exact absurd held intact
        | closed | idle =>
            rw [held] at whole
            exact contents_of_holds whole.1
      cases total with
      | none => exact finished
      | some total => exact ⟨finished, whole.2 total rfl⟩

/-- A background write that ends well keeps every promise. -/
theorem Whole.land (whole : single.Whole content disk) {offset : Nat} {bytes : List UInt8}
    (held : single.handle = .busy offset bytes) (opened : single.hasHandle = true) :
    ({ single with handle := .idle } : Single).Whole content (disk.write offset bytes) := by
  unfold hasHandle at opened
  split at opened <;> rename_i at_pc
  · simp only [Whole, at_pc] at whole ⊢
    exact whole
  · simp only [Whole, at_pc] at whole ⊢
    exact whole
  · simp only [Whole, at_pc] at whole ⊢
    exact whole
  · simp only [Whole, at_pc] at whole ⊢
    exact whole
  · rename_i total result
    cases result with
    | error error => simp only [Whole, at_pc]
    | ok =>
        simp only [Whole, at_pc, held] at whole ⊢
        exact ⟨whole.1.land, whole.2⟩
  · cases opened

/-- Each step keeps the promise of its control point. The file that counts as complete has to hold the content, and
no background write may be lost. -/
theorem Whole.step (whole : single.Whole content disk) (sound : single.Sound content io job disk)
    (intact : single.handle ≠ .failed) (size : ∀ total ∈ job.info.size, total = content.length)
    {event : SingleEvent} (honest : single.Honest content event)
    (lossless : ∀ kept, event = .lose kept → io = .through)
    (complete : event = .stat true → ∀ total ∈ job.info.size, total ≤ disk.length → 0 < disk.length →
      disk.contents = some content)
    {next : Disk Text × Single} (taken : Single.step io job (disk, single) event = some next) :
    next.2.Whole content next.1 := by
  have aligned := sound.aligned
  have move := step_move taken
  generalize next.1 = after at move ⊢
  generalize next.2 = moved at move ⊢
  cases move with
  | cancelled => exact whole
  | landed offset bytes held => exact whole.land held (sound.opened (by simp [held, Handle.flight]))
  | lost kept offset bytes held => cases (lossless kept rfl).symm.trans (sound.carried held).1
  | looked readable at_pc =>
      cases readable with
      | true => exact onStat_whole (complete rfl)
      | false => exact onStat_whole fun _ _ _ positive => absurd positive (by simp)
  | answered existing resume response at_pc => exact onReply_whole at_pc size honest
  | created total body at_pc =>
      simp only [Whole, at_pc] at whole
      exact ⟨whole.1, whole.2⟩
  | opened stream at_pc =>
      simp only [Whole, at_pc] at whole
      exact whole
  | chunk stream size at_pc =>
      simp only [Whole, Aligned, at_pc] at whole aligned
      exact onChunk_whole aligned.1 intact whole _
  | ended stream at_pc empty =>
      simp only [Whole, Aligned, at_pc] at whole aligned
      -- The body is used up, so the position has reached the end of the content.
      have nothing : content.drop stream.pos = [] := whole.body ▸ empty
      exact ⟨aligned.1.reached intact (List.drop_eq_nil_iff.mp nothing), whole.total⟩
  | wrote stream bytes mode at_pc =>
      simp only [Whole, at_pc] at whole
      exact onWrote_whole _ whole
  | passed stream bytes mode idle at_pc =>
      simp only [Whole, at_pc] at whole
      exact onWrote_whole _ whole
  | flushed stream at_pc =>
      simp only [Whole, at_pc] at whole
      unfold onFlushed
      split_ifs
      · exact whole
      · exact ⟨whole.body, whole.total⟩
  | synced stream at_pc =>
      simp only [Whole, at_pc] at whole
      exact ⟨whole.body, whole.total⟩
  | closed total result synced at_pc settled =>
      cases synced with
      | true => exact whole.onClosed sound at_pc intact settled Disk.contents_sync
      | false => exact whole.onClosed sound at_pc intact settled rfl
  | measured total at_pc =>
      simp only [Whole, at_pc] at whole
      unfold onMeasured
      split_ifs
      · exact fail_whole _ _
      · exact whole.1
  | failed => exact fail_whole _ _
  | stopped | began | torn | broken | slept | interrupted => trivial

/-- Each step keeps to the content and to its promises, and the file grows along the content or is truncated. A range
request has to go on behind a part of the content. -/
theorem Whole.sound_step (whole : single.Whole content disk) (sound : single.Sound content io job disk)
    (intact : single.handle ≠ .failed) (size : ∀ total ∈ job.info.size, total = content.length)
    {event : SingleEvent} (honest : single.Honest content event)
    (lossless : ∀ kept, event = .lose kept → io = .through)
    (complete : event = .stat true → ∀ total ∈ job.info.size, total ≤ disk.length → 0 < disk.length →
      disk.contents = some content)
    (resumes : ∀ existing, single.pc = .sent existing true → disk.Holds content existing)
    {next : Disk Text × Single} (taken : Single.step io job (disk, single) event = some next) :
    next.2.Sound content io job next.1 ∧ next.2.Whole content next.1 ∧
      Touched content disk single event next.1 := by
  have promised := whole.step sound intact size honest lossless complete taken
  by_cases answered : ∃ response, event = .reply (some response)
  · obtain ⟨response, rfl⟩ := answered
    obtain ⟨existing, resume, at_pc, rfl⟩ := step_reply taken
    obtain ⟨partly, fully⟩ := honest (existing, resume) (by simp [requested, at_pc])
    refine ⟨onReply_sound sound at_pc ?_ ?_, promised, .rest _⟩
    · rintro rfl status
      refine ⟨resumes existing at_pc, ?_⟩
      rw [(partly status).1]
      exact List.prefix_refl _
    · rintro (status | ⟨rfl, status⟩)
      · exact (fully status).1 ▸ List.prefix_refl _
      · rw [(partly status).1]
        exact List.prefix_refl _
  · have unanswered : ∀ response, event ≠ .reply (some response) := fun response same => answered ⟨response, same⟩
    obtain ⟨kept, touched⟩ := sound.step unanswered
      (fun stat total known reached positive => by
        have held := complete stat total known reached positive
        exact ⟨content.length, content, held, rfl, List.prefix_refl _⟩) taken
    exact ⟨kept, promised, touched⟩

/-- The data file is absent or holds the first bytes of the content. -/
def Partial (content : List UInt8) (disk : Disk Text) : Prop := ∀ held ∈ disk.contents, held <+: content

theorem Partial.complete (part : Partial content disk) (long : content.length ≤ disk.length)
    (positive : 0 < disk.length) : disk.contents = some content := by
  obtain ⟨held, present, length⟩ := Disk.contents_of_pos positive
  exact contents_of_reached ⟨held, present, length, part held present⟩ long

theorem Partial.touched {event : SingleEvent} {after : Disk Text} (part : Partial content disk)
    (touched : Touched content disk single event after) : Partial content after := by
  intro held present
  cases touched with
  | kept _ _ contents =>
      exact part held (contents ▸ present)
  | truncated =>
      obtain rfl : [] = held := Option.some.inj present
      exact List.nil_prefix
  | extended _ _ _ holds suited =>
      obtain ⟨longer, same, -, start⟩ := holds.write suited
      obtain rfl := Option.some.inj (same.symm.trans present)
      exact start

/-- The whole call keeps the data file a part of the content, whatever fails and however often it starts again, and a
call that returns without an error leaves all of it. -/
theorem transfers {events : List SingleEvent} {last : Disk Text × Single} {cancelled : Bool}
    (size : ∀ total ∈ job.info.size, total = content.length) (part : Partial content disk)
    (run : Run (Single.step .through job) (fun state event => state.2.Honest content event)
      (disk, Single.start cancelled) events last) :
    Partial content last.1 ∧ (last.2.outcome = some (.ok ()) → last.1.contents = some content) := by
  have kept := run.invariant
    (fun state => Partial content state.1 ∧ state.2.Sound content .through job state.1 ∧
      state.2.Whole content state.1) ?_
      ⟨part, start_sound content .through job disk cancelled, start_whole content disk cancelled⟩
  · obtain ⟨still, -, whole⟩ := kept
    refine ⟨still, fun returned => ?_⟩
    rw [outcome_iff] at returned
    simpa only [Whole, returned] using whole
  · rintro ⟨disk, single⟩ event next ⟨part, sound, whole⟩ honest taken
    have resumes : ∀ existing, single.pc = .sent existing true → disk.Holds content existing := by
      intro existing at_pc
      have aligned := sound.aligned
      simp only [Aligned, at_pc] at aligned
      obtain ⟨-, here, positive, -⟩ := aligned trivial
      obtain ⟨held, present, measured⟩ := Disk.contents_of_pos (here ▸ positive)
      exact ⟨held, present, measured.trans here.symm, part held present⟩
    have intact : single.handle ≠ .failed := by
      rcases sound.still rfl with same | same <;> rw [same] <;> rintro ⟨⟩
    obtain ⟨kept, promised, touched⟩ := whole.sound_step sound intact size honest (fun _ _ => rfl)
      (fun _ total known reached positive => part.complete (size total known ▸ reached) positive) resumes taken
    exact ⟨part.touched touched, kept, promised⟩

/-- A resource of three bytes whose size the probe did not learn. -/
def unsized : Job := ⟨⟨"u", none, by simp, true, some "a", none, none⟩, 1, {}⟩

/-- The first stream breaks after one byte. The server answers the resume with the whole resource, and that stream
breaks after two bytes. The next resume brings the last byte. -/
def brokenTwice : List SingleEvent :=
  [.check, .stat true, .reply (some ⟨200, none, some "3", [1, 2, 3]⟩), .created true, .opened true, .chunk 1, .wrote,
    .streamError, .closed true, .slept,
    .check, .stat true, .reply (some ⟨200, none, some "3", [1, 2, 3]⟩), .created true, .opened true, .chunk 2, .wrote,
    .streamError, .closed true, .slept,
    .check, .stat true, .reply (some ⟨206, some "bytes 2-2/3", none, [3]⟩), .opened true, .chunk 1, .wrote, .streamEnd,
    .closed true, .measured true]

def brokenTwiceRun : Option (Disk DownloadState × Single) :=
  replay (Single.step .through unsized) (⟨none, none⟩, Single.start false) brokenTwice

theorem transfers_brokenTwice : (brokenTwiceRun.get rfl).1.contents = some [1, 2, 3] := by
  have run : Run (Single.step .through unsized) (fun state event => state.2.Honest [1, 2, 3] event)
      (⟨none, none⟩, Single.start false) brokenTwice (brokenTwiceRun.get rfl) :=
    run_of_replay (by decide +kernel) (Option.some_get _).symm
  exact (transfers (by simp [unsized]) (by simp [Partial, Disk.contents]) run).2 rfl

end Single

end FastDownloader
