/-
This file proves that a single-thread call which meets no fault comes to its end, and says what it leaves in the file.
-/

import FastDownloader.Foundation.Settling
import FastDownloader.Proof.SingleThread.Transfer

namespace FastDownloader

open Foundation

/-- A policy lists the statuses that a server may give to a request, with a range or without. -/
abbrev Policy := Bool → Nat → Prop

/-- A conforming server sends the whole resource, or the asked part of it, and it always answers. -/
structure Policy.Conforming (policy : Policy) : Prop where
  answers : ∀ resume status, policy resume status → status = 200 ∨ (resume = true ∧ status = 206)
  lively : ∀ resume, ∃ status, policy resume status

/-- This server honours every range. -/
def honouring : Policy := fun resume status => status = if resume then 206 else 200

/-- This server ignores every range. -/
def ignoring : Policy := fun _ status => status = 200

theorem honouring_conforming : honouring.Conforming where
  answers resume status given := by cases resume <;> simp_all [honouring]
  lively resume := ⟨_, rfl⟩

theorem ignoring_conforming : ignoring.Conforming where
  answers _ _ given := Or.inl given
  lively _ := ⟨200, rfl⟩

namespace Single

/-- The number of bytes that the next chunk can have. -/
def unread (single : Single) : Nat :=
  match single.pc with
  | .streaming stream => stream.body.length
  | _ => 0

/-- Nothing fails, nothing is cancelled, and the server answers by its policy. -/
def Faultless (content : List UInt8) (policy : Policy) (single : Single) : SingleEvent → Prop
  | .stat ok | .created ok | .opened ok | .flushed ok | .synced ok | .measured ok => ok = true
  | .reply (some response) => single.Honest content (.reply (some response)) ∧
      ∀ request ∈ single.requested, policy request.2 response.status
  | .chunk size => size ≤ single.unread
  | .check | .streamEnd | .wrote | .land | .closed _ => True
  | .reply none | .cancel | .streamError | .writeFailed _ | .lose _ | .slept | .interrupted => False

/-- A server may send empty chunks between the others. -/
def Idle (_ : Single) (event : SingleEvent) : Prop := event = .chunk 0

/-- The call is on its way to success. -/
def onward (single : Single) : Bool :=
  match single.pc with
  | .creating _ _ | .opening _ | .streaming _ | .writing _ _ | .flushing _ | .syncing _ | .closing _ (.ok ())
  | .measuring _ | .returned (.ok ()) => true
  | _ => false

/-- An open handle is idle or carries one background write. -/
def Opened (single : Single) : Prop :=
  single.handle ≠ .failed ∧ (single.hasHandle = true → single.handle ≠ .closed)

/-- The rank counts the unread bytes first and then the control points that are left. -/
def rank (content : List UInt8) (single : Single) : Nat :=
  single.handle.flights + match single.pc with
  | .head => 8 * content.length + 40
  | .looking => 8 * content.length + 39
  | .sent _ _ => 8 * content.length + 38
  | .creating _ body => 8 * body.length + 36
  | .opening stream => 8 * stream.body.length + 34
  | .streaming stream => 8 * stream.body.length + 20
  | .writing stream _ => 8 * stream.body.length + 26
  | .flushing stream => 8 * stream.body.length + 24
  | .syncing stream => 8 * stream.body.length + 22
  | .closing _ _ => 10
  | .measuring _ => 5
  | _ => 0

/-- What a step without a fault does on the way to success. -/
structure Advances (content : List UInt8) (single : Single) (event : SingleEvent) (next : Single) : Prop where
  onward : next.onward = true
  calm : next.cancelled = false
  opened : next.Opened
  falls : next.rank content < single.rank content ∨ (event = .chunk 0 ∧ next.rank content ≤ single.rank content)

variable {Text : Type} {content target : List UInt8} {policy : Policy} {io : FileIo} {job : Job}
  {disk after : Disk Text} {single next : Single} {event : SingleEvent}

theorem Faultless.no_fault (faultless : single.Faultless content policy event) : event.fault ≠ true := by
  unfold SingleEvent.fault
  split
  all_goals first | exact Bool.false_ne_true | cases faultless

/-- A jump that keeps the handle falls when its own part of the rank does. -/
theorem Advances.jump {pc : SinglePc} (opened : single.Opened) (calm : single.cancelled = false)
    (onward : ({ single with pc := pc } : Single).onward = true)
    (held : ({ single with pc := pc } : Single).hasHandle = true → single.hasHandle = true)
    (falls : ({ single with pc := pc } : Single).rank content < single.rank content) :
    Advances content single event { single with pc := pc } :=
  ⟨onward, calm, ⟨opened.1, fun has => opened.2 (held has)⟩, Or.inl falls⟩

theorem onChunk_advances {stream : Stream} {size : Nat} (at_pc : single.pc = .streaming stream)
    (opened : single.Opened) (calm : single.cancelled = false) (piece : size ≤ stream.body.length) :
    Advances content single (.chunk size) (single.onChunk stream size) := by
  have keeps : single.hasHandle = true := by simp [hasHandle, at_pc]
  unfold onChunk
  dsimp only
  rw [if_neg (by simp [calm])]
  split_ifs with empty full
  · -- The chunk is empty because its size is zero.
    have nothing : size = 0 := by
      rw [List.isEmpty_iff, List.take_eq_nil_iff] at empty
      rcases empty with zero | none
      · exact zero
      · simpa [none] using piece
    subst nothing
    refine ⟨rfl, calm, ⟨opened.1, fun _ => opened.2 keeps⟩, Or.inr ⟨rfl, ?_⟩⟩
    simp [rank, at_pc]
  · exact .jump opened calm rfl (fun _ => keeps) (by simp only [rank, at_pc]; omega)
  · have positive : size ≠ 0 := by
      rintro rfl
      exact empty (by simp)
    refine .jump opened calm rfl (fun _ => keeps) ?_
    simp only [rank, at_pc, List.length_drop]
    omega

theorem onWrote_advances {cfg : DownloaderConfig} {stream : Stream} {bytes : List UInt8}
    (at_pc : single.pc = .writing stream bytes) (calm : single.cancelled = false) {handle : Handle}
    (opened : handle ≠ .failed ∧ handle ≠ .closed) (light : handle.flights ≤ single.handle.flights + 1) :
    Advances content single .wrote ({ single with handle := handle }.onWrote cfg stream bytes) := by
  unfold onWrote
  dsimp only
  split_ifs
  · refine ⟨rfl, calm, ⟨opened.1, fun _ => opened.2⟩, Or.inl ?_⟩
    simp only [rank, at_pc]
    omega
  · refine ⟨rfl, calm, ⟨opened.1, fun _ => opened.2⟩, Or.inl ?_⟩
    simp only [rank, at_pc]
    omega

/-- Each step without a fault keeps the call on its way and lowers the rank, except for an empty chunk. -/
theorem step_advances (onward : single.onward = true) (calm : single.cancelled = false) (opened : single.Opened)
    (whole : single.Whole target disk) (faultless : single.Faultless content policy event)
    {next : Disk Text × Single} (taken : Single.step io job (disk, single) event = some next) :
    Advances content single event next.2 := by
  have move := step_move taken
  generalize next.1 = after at move
  generalize next.2 = moved at move ⊢
  cases move with
  | cancelled | lost | torn | interrupted | slept => cases faultless
  | failed _ error fault | broken _ total error fault => exact absurd fault faultless.no_fault
  | stopped at_pc | began at_pc | looked readable at_pc | answered existing resume response at_pc =>
      simp [Single.onward, at_pc] at onward
  | landed offset bytes held =>
      refine ⟨onward, calm, ⟨by rintro ⟨⟩, fun _ => by rintro ⟨⟩⟩, Or.inl ?_⟩
      simp [rank, Handle.flights, held, Handle.flight]
  | created total body at_pc => exact .jump opened calm rfl (by rintro ⟨⟩) (by simp only [rank, at_pc]; omega)
  | opened stream at_pc =>
      refine ⟨rfl, calm, ⟨by rintro ⟨⟩, fun _ => by rintro ⟨⟩⟩, Or.inl ?_⟩
      simp only [rank, at_pc, Handle.flights, Handle.flight]
      simp only [Option.isSome_none, Bool.false_eq_true, if_false]
      omega
  | chunk stream size at_pc =>
      have piece : size ≤ stream.body.length := by simpa [Faultless, unread, at_pc] using faultless
      exact onChunk_advances at_pc opened calm piece
  | ended stream at_pc =>
      exact .jump opened calm rfl (fun _ => by simp [hasHandle, at_pc]) (by simp only [rank, at_pc]; omega)
  | wrote stream bytes mode at_pc =>
      exact onWrote_advances at_pc calm ⟨opened.1, opened.2 (by simp [hasHandle, at_pc])⟩ (Nat.le_succ _)
  | passed stream bytes mode idle at_pc =>
      exact onWrote_advances at_pc calm ⟨by rintro ⟨⟩, by rintro ⟨⟩⟩ (by unfold Handle.flights; split_ifs <;> omega)
  | flushed stream at_pc =>
      have keeps : single.hasHandle = true := by simp [hasHandle, at_pc]
      unfold onFlushed
      split_ifs
      · exact .jump opened calm rfl (fun _ => keeps) (by simp only [rank, at_pc]; omega)
      · exact .jump opened calm rfl (fun _ => keeps) (by simp only [rank, at_pc]; omega)
  | synced stream at_pc =>
      exact .jump opened calm rfl (fun _ => by simp [hasHandle, at_pc]) (by simp only [rank, at_pc]; omega)
  | closed total result synced at_pc =>
      unfold onClosed
      cases result with
      | error error => simp [Single.onward, at_pc] at onward
      | ok =>
          cases total with
          | none =>
              exact ⟨rfl, calm, ⟨by rintro ⟨⟩, by rintro ⟨⟩⟩,
                Or.inl (by simp [rank, at_pc, Handle.flights, Handle.flight])⟩
          | some total =>
              exact ⟨rfl, calm, ⟨by rintro ⟨⟩, by rintro ⟨⟩⟩,
                Or.inl (by simp [rank, at_pc, Handle.flights, Handle.flight])⟩
  | measured total at_pc =>
      simp only [Whole, at_pc] at whole
      have measured : disk.length = total := (Disk.length_of_contents whole.1).trans whole.2.symm
      simp only [onMeasured, measured, ne_eq, not_true_eq_false, if_false]
      exact .jump opened calm rfl (by rintro ⟨⟩) (by simp only [rank, at_pc]; omega)

/-- An open handle is idle, or its background write can land. -/
theorem Opened.idle_or_lands (opened : single.Opened) (keeps : single.hasHandle = true) :
    single.handle = .idle ∨ (Single.step io job (disk, single) .land).isSome = true := by
  cases held : single.handle with
  | busy offset bytes => exact Or.inr (by simp [Single.step, held])
  | idle => exact Or.inl rfl
  | failed => exact absurd held opened.1
  | closed => exact absurd held (opened.2 keeps)

/-- A call on its way to success can go on. A background write lands before the call waits for its handle. -/
theorem onward_moves (onward : single.onward = true) (opened : single.Opened) (pending : single.outcome = none) :
    ∃ event, single.Faultless content policy event ∧ ¬ single.Idle event ∧
      (Single.step io job (disk, single) event).isSome = true := by
  by_cases landing : (Single.step io job (disk, single) .land).isSome = true
  · exact ⟨.land, trivial, by rintro ⟨⟩, landing⟩
  · have idle : single.hasHandle = true → single.handle = .idle := fun keeps =>
      (opened.idle_or_lands keeps).resolve_right landing
    cases at_pc : single.pc with
    | creating => exact ⟨.created true, rfl, by rintro ⟨⟩, by simp [Single.step, at_pc]⟩
    | opening => exact ⟨.opened true, rfl, by rintro ⟨⟩, by simp [Single.step, at_pc]⟩
    | streaming stream =>
        by_cases ended : stream.body = []
        · exact ⟨.streamEnd, trivial, by rintro ⟨⟩, by simp [Single.step, at_pc, ended]⟩
        · refine ⟨.chunk stream.body.length, ?_, ?_, by simp [Single.step, at_pc]⟩
          · simp [Faultless, unread, at_pc]
          · simp [Idle, ended]
    | writing =>
        have free := idle (by simp [hasHandle, at_pc])
        exact ⟨.wrote, trivial, by rintro ⟨⟩, by cases io <;> simp [Single.step, at_pc, free]⟩
    | flushing =>
        have free := idle (by simp [hasHandle, at_pc])
        exact ⟨.flushed true, rfl, by rintro ⟨⟩, by cases io <;> simp [Single.step, at_pc, free, Worker.flushReports]⟩
    | syncing => exact ⟨.synced true, rfl, by rintro ⟨⟩, by simp [Single.step, at_pc]⟩
    | closing =>
        have free := idle (by simp [hasHandle, at_pc])
        exact ⟨.closed true, trivial, by rintro ⟨⟩, by cases io <;> simp [Single.step, at_pc, free, Single.settled]⟩
    | measuring => exact ⟨.measured true, rfl, by rintro ⟨⟩, by simp [Single.step, at_pc]⟩
    | returned result => simp [Single.outcome, at_pc] at pending
    | head | looking | sent | waiting | panicked => simp [Single.onward, at_pc] at onward

/-- The file of an earlier run is taken for complete. -/
def settledBy (job : Job) (held : List UInt8) : Bool :=
  job.info.size.any (fun total => total ≤ held.length) && 0 < held.length

/-- The bytes that a resumed call makes of what it finds in the file. -/
def spliced (content held : List UInt8) : List UInt8 := held ++ content.drop held.length

/-- The bytes that a call without a fault can leave where it finds these bytes. -/
inductive Made (content : List UInt8) (policy : Policy) (job : Job) (held : List UInt8) : List UInt8 → Prop
  | kept (settled : settledBy job held = true) : Made content policy job held held
  | whole (unsettled : settledBy job held = false)
      (allowed : policy (0 < held.length && job.info.supportsRange) 200) : Made content policy job held content
  | resumed (unsettled : settledBy job held = false) (positive : 0 < held.length)
      (ranges : job.info.supportsRange = true) (allowed : policy true 206) :
      Made content policy job held (spliced content held)

/-- A call without a fault asks once, and the answer fixes what it brings. -/
inductive Smooth (content : List UInt8) (policy : Policy) (io : FileIo) (job : Job) (held : List UInt8)
    (disk : Disk Text) (single : Single) : Prop
  | beginning (at_pc : single.pc = .head) (found : disk.contents.getD [] = held) (shut : single.handle = .closed)
  | asking (at_pc : single.pc = .looking) (found : disk.contents.getD [] = held) (shut : single.handle = .closed)
  | asked (resume : Bool) (at_pc : single.pc = .sent held.length resume) (found : disk.contents.getD [] = held)
      (shut : single.handle = .closed) (unsettled : settledBy job held = false)
      (resumes : resume = (0 < held.length && job.info.supportsRange))
  | brings (target : List UInt8) (made : Made content policy job held target)
      (length : target.length = content.length) (sound : single.Sound target io job disk)
      (whole : single.Whole target disk) (onward : single.onward = true) (opened : single.Opened)
  | complete (at_pc : single.pc = .returned (.ok ())) (found : disk.contents.getD [] = held)
      (shut : single.handle = .closed) (settled : settledBy job held = true)

variable {held : List UInt8}

/-- These facts hold before a call that finds these bytes in the file. -/
structure Prepared (content : List UInt8) (job : Job) (held : List UInt8) : Prop where
  fits : ∀ total ∈ job.info.size, total = content.length
  within : settledBy job held = false → 0 < held.length → job.info.supportsRange = true →
    held.length ≤ content.length

/-- What one step without a fault does to a smooth call. -/
structure Goes (content : List UInt8) (policy : Policy) (io : FileIo) (job : Job) (held : List UInt8)
    (single : Single) (event : SingleEvent) (after : Disk Text) (next : Single) : Prop where
  smooth : Smooth content policy io job held after next
  calm : next.cancelled = false
  falls : next.rank content < single.rank content ∨ (event = .chunk 0 ∧ next.rank content ≤ single.rank content)

theorem beginning_goes (at_pc : single.pc = .head) (found : disk.contents.getD [] = held)
    (shut : single.handle = .closed) (calm : single.cancelled = false)
    (faultless : single.Faultless content policy event) {next : Disk Text × Single}
    (taken : Single.step io job (disk, single) event = some next) :
    Goes content policy io job held single event next.1 next.2 := by
  cases event with
  | check =>
      simp only [Single.step, at_pc, Option.some.injEq] at taken
      subst taken
      unfold onHead
      rw [if_neg (by simp [calm])]
      exact ⟨.asking rfl found shut, calm, Or.inl (by simp [rank, at_pc])⟩
  | land | lose => simp [Single.step, shut] at taken
  | cancel => cases faultless
  | _ => simp [Single.step, at_pc] at taken

theorem asking_goes (at_pc : single.pc = .looking) (found : disk.contents.getD [] = held)
    (shut : single.handle = .closed) (calm : single.cancelled = false)
    (faultless : single.Faultless content policy event) {next : Disk Text × Single}
    (taken : Single.step io job (disk, single) event = some next) :
    Goes content policy io job held single event next.1 next.2 := by
  cases event with
  | stat ok =>
      obtain rfl : ok = true := faultless
      simp only [Single.step, at_pc, Option.some.injEq] at taken
      subst taken
      have measured : disk.length = held.length := by rw [Disk.length_eq, found]
      simp only [if_true, measured]
      unfold onStat
      split_ifs with settled
      · exact ⟨.complete rfl found shut settled, calm, Or.inl (by simp [rank, at_pc])⟩
      · exact ⟨.asked _ rfl found shut (Bool.eq_false_iff.mpr settled) rfl, calm, Or.inl (by simp [rank, at_pc])⟩
  | land | lose => simp [Single.step, shut] at taken
  | cancel => cases faultless
  | _ => simp [Single.step, at_pc] at taken

/-- The server sends the whole resource, so the file starts again. -/
theorem whole_goes (fits : ∀ total ∈ job.info.size, total = content.length) {existing : Nat} {resume : Bool}
    (at_pc : single.pc = .sent existing resume) (shut : single.handle = .closed) (calm : single.cancelled = false)
    (made : Made content policy job held content) (sound : single.Sound content io job disk) {response : Response}
    (honest : single.Honest content (.reply (some response))) (status : response.status = 200) :
    Goes content policy io job held single event disk (single.onReply job existing resume response) := by
  obtain ⟨body, -⟩ := (honest (existing, resume) (by simp [requested, at_pc])).2 status
  have replied : single.onReply job existing resume response =
      { single with pc := .creating (response.lengthTotal.or job.info.size) response.body } := by
    unfold onReply
    cases resume <;> simp [status]
  have kept : (single.onReply job existing resume response).Sound content io job disk :=
    onReply_sound sound at_pc (fun _ other => by simp [status] at other) fun _ => body ▸ List.prefix_refl _
  have whole : (single.onReply job existing resume response).Whole content disk := onReply_whole at_pc fits honest
  rw [replied] at kept whole ⊢
  refine ⟨.brings content made rfl kept whole rfl ⟨by rw [shut]; rintro ⟨⟩, by rintro ⟨⟩⟩, calm, Or.inl ?_⟩
  simp only [rank, at_pc, body]
  omega

/-- The server sends what is missing behind the bytes in the file. -/
theorem part_goes (prepared : Prepared content job held) (at_pc : single.pc = .sent held.length true)
    (found : disk.contents = some held) (shut : single.handle = .closed) (calm : single.cancelled = false)
    (unsettled : settledBy job held = false) (positive : 0 < held.length) (ranges : job.info.supportsRange = true)
    (allowed : policy true 206) (sound : single.Sound content io job disk) {response : Response}
    (honest : single.Honest content (.reply (some response))) (status : response.status = 206) :
    Goes content policy io job held single event disk (single.onReply job held.length true response) := by
  have within := prepared.within unsettled positive ranges
  have asking : (held.length, true) ∈ single.requested := by simp [requested, at_pc]
  obtain ⟨body, totals⟩ := (honest _ asking).1 status
  simp only [if_true] at body
  have length : (spliced content held).length = content.length := by
    simp only [spliced, List.length_append, List.length_drop]
    omega
  have behind : (spliced content held).drop held.length = response.body := List.drop_left.trans body.symm
  have carried : single.Honest (spliced content held) (.reply (some response)) := by
    intro request member
    obtain rfl := Option.some.inj (Eq.trans (Eq.symm asking) member)
    refine ⟨fun _ => ⟨behind.symm, fun total known => (totals total known).trans length.symm⟩, fun other => ?_⟩
    simp [status] at other
  have replied : single.onReply job held.length true response =
      { single with
        pc := .opening ⟨held.length, response.rangeTotal.or job.info.size, 0, response.body⟩ } := by
    unfold onReply
    simp [status]
  have kept : (single.onReply job held.length true response).Sound (spliced content held) io job disk :=
    onReply_sound sound at_pc
      (fun _ _ => ⟨⟨held, found, rfl, List.prefix_append _ _⟩, behind ▸ List.prefix_refl _⟩)
      fun written => by simp [status] at written
  have whole : (single.onReply job held.length true response).Whole (spliced content held) disk :=
    onReply_whole at_pc (fun total known => (prepared.fits total known).trans length.symm) carried
  rw [replied] at kept whole ⊢
  refine ⟨.brings _ (.resumed unsettled positive ranges allowed) length kept whole rfl
    ⟨by rw [shut]; rintro ⟨⟩, by rintro ⟨⟩⟩, calm, Or.inl ?_⟩
  simp only [rank, at_pc, body, List.length_drop]
  omega

/-- The answer fixes the bytes that the file will hold. -/
theorem asked_goes (conforming : policy.Conforming) (prepared : Prepared content job held) {resume : Bool}
    (at_pc : single.pc = .sent held.length resume) (found : disk.contents.getD [] = held)
    (shut : single.handle = .closed) (unsettled : settledBy job held = false)
    (resumes : resume = (0 < held.length && job.info.supportsRange)) (calm : single.cancelled = false)
    (faultless : single.Faultless content policy event) {next : Disk Text × Single}
    (taken : Single.step io job (disk, single) event = some next) :
    Goes content policy io job held single event next.1 next.2 := by
  have measured : disk.length = held.length := by rw [Disk.length_eq, found]
  have sound : single.Sound content io job disk := by
    refine ⟨fun _ => Or.inr shut, fun _ => by rw [shut]; rfl, ?_⟩
    simp only [Aligned, at_pc]
    intro asks
    rw [asks, eq_comm, Bool.and_eq_true, decide_eq_true_eq] at resumes
    refine ⟨resumes.2, measured.symm, resumes.1, fun total known => Nat.lt_of_not_le fun reached => ?_⟩
    simp [settledBy, Option.mem_def.mp known, reached, resumes.1] at unsettled
  cases event with
  | reply answer =>
      cases answer with
      | none => cases faultless
      | some response =>
          obtain ⟨honest, allowed⟩ := faultless
          simp only [Single.step, at_pc, Option.some.injEq] at taken
          subst taken
          have given := allowed (held.length, resume) (by simp [requested, at_pc])
          rcases conforming.answers _ _ given with status | ⟨asks, status⟩
          · rw [status, resumes] at given
            exact whole_goes prepared.fits at_pc shut calm (.whole unsettled given) sound honest status
          · rw [status, asks] at given
            obtain rfl : resume = true := asks
            rw [eq_comm, Bool.and_eq_true, decide_eq_true_eq] at resumes
            obtain ⟨bytes, present, -⟩ := Disk.contents_of_pos (measured ▸ resumes.1)
            rw [present, Option.getD_some] at found
            exact part_goes prepared at_pc (found ▸ present) shut calm unsettled resumes.1 resumes.2 given sound honest
              status
  | land | lose => simp [Single.step, shut] at taken
  | cancel | interrupted => cases faultless
  | _ => simp [Single.step, at_pc] at taken

/-- One step without a fault keeps the call smooth. -/
theorem Smooth.step (smooth : Smooth content policy io job held disk single) (calm : single.cancelled = false)
    (conforming : policy.Conforming) (prepared : Prepared content job held)
    (faultless : single.Faultless content policy event) {next : Disk Text × Single}
    (taken : Single.step io job (disk, single) event = some next) :
    Goes content policy io job held single event next.1 next.2 := by
  cases smooth with
  | beginning at_pc found shut => exact beginning_goes at_pc found shut calm faultless taken
  | asking at_pc found shut => exact asking_goes at_pc found shut calm faultless taken
  | asked resume at_pc found shut unsettled resumes =>
      exact asked_goes conforming prepared at_pc found shut unsettled resumes calm faultless taken
  | brings target made length sound whole onward opened =>
      have unasked : single.requested = none := by
        unfold requested
        split
        · rename_i at_pc
          simp [Single.onward, at_pc] at onward
        · rfl
      have honest : single.Honest target event := by
        unfold Honest
        split
        · rw [unasked]
          nofun
        · trivial
      obtain ⟨onward', calm', opened', falls⟩ := step_advances onward calm opened whole faultless taken
      obtain ⟨kept, promised, -⟩ := whole.sound_step sound opened.1
        (fun total known => (prepared.fits total known).trans length.symm) honest
        (fun kept lost => by subst lost; cases faultless)
        (fun stat => by
          subst stat
          have at_pc := (step_stat taken).1
          simp [Single.onward, at_pc] at onward)
        (fun existing at_pc => by simp [requested, at_pc] at unasked) taken
      exact ⟨.brings target made length kept promised onward' opened', calm', falls⟩
  | complete at_pc found shut settled =>
      cases event with
      | cancel => cases faultless
      | land | lose => simp [Single.step, shut] at taken
      | _ => simp [Single.step, at_pc] at taken

/-- A smooth call that has not returned can go on. -/
theorem Smooth.moves (smooth : Smooth content policy io job held disk single) (conforming : policy.Conforming)
    (pending : single.outcome = none) :
    ∃ event, single.Faultless content policy event ∧ ¬ single.Idle event ∧
      (Single.step io job (disk, single) event).isSome = true := by
  cases smooth with
  | beginning at_pc => exact ⟨.check, trivial, by rintro ⟨⟩, by simp [Single.step, at_pc]⟩
  | asking at_pc => exact ⟨.stat true, rfl, by rintro ⟨⟩, by simp [Single.step, at_pc]⟩
  | asked resume at_pc =>
      obtain ⟨status, allowed⟩ := conforming.lively resume
      have asking : single.requested = some (held.length, resume) := by simp [requested, at_pc]
      refine ⟨.reply (some ⟨status, none, none, if status = 206 then content.drop (if resume then held.length else 0)
        else content⟩), ⟨?_, ?_⟩, by rintro ⟨⟩, by simp [Single.step, at_pc]⟩
      · intro request member
        obtain rfl := Option.mem_some.mp (asking ▸ member)
        refine ⟨fun partly => ⟨if_pos partly, by rintro _ ⟨⟩⟩, fun complete => ⟨if_neg ?_, by rintro _ ⟨⟩⟩⟩
        exact ne_of_eq_of_ne complete (by decide)
      · intro request member
        obtain rfl := Option.mem_some.mp (asking ▸ member)
        exact allowed
  | brings target made length sound whole onward opened => exact onward_moves onward opened pending
  | complete at_pc => simp [Single.outcome, at_pc] at pending

/-- A smooth call that has returned has no error and leaves bytes that were to be expected. -/
theorem Smooth.ended (smooth : Smooth content policy io job held disk single) {result : Except Error Unit}
    (returned : single.outcome = some result) :
    result = .ok () ∧ ∃ target, Made content policy job held target ∧ disk.contents = some target := by
  have at_pc := (outcome_iff single result).mp returned
  cases smooth with
  | beginning other | asking other | asked _ other => simp [at_pc] at other
  | brings target made length sound whole onward opened =>
      cases result with
      | error error => simp [Single.onward, at_pc] at onward
      | ok =>
          simp only [Whole, at_pc] at whole
          exact ⟨rfl, target, made, whole⟩
  | complete other found shut settled =>
      rw [at_pc, SinglePc.returned.injEq] at other
      refine ⟨other, held, .kept settled, ?_⟩
      have positive : 0 < disk.length := by
        rw [Disk.length_eq, found]
        exact of_decide_eq_true (Bool.and_eq_true_iff.mp settled).2
      obtain ⟨bytes, present, -⟩ := Disk.contents_of_pos positive
      rw [present, Option.getD_some] at found
      exact found ▸ present

end Single

end FastDownloader
