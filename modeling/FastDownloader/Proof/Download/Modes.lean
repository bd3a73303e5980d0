/-
This file proves when calls of both paths on one save path leave exactly the content of the resource.
-/

import FastDownloader.Proof.Download.Landing
import FastDownloader.Proof.MultiThread.Version
import FastDownloader.Proof.SingleThread.Attempt

namespace FastDownloader

open Foundation

/-- A server of this content describes it in every probe and serves it in every answer. -/
def Download.Supplied (content : List UInt8) (download : Download) : DownloadEvent → Prop
  | .probed (.ok info) => info.size = some content.length ∧ info.digest = none
  | .multi act => ∀ process ∈ download.multi?,
      process.2.Answered (ByteOf content) act ∧ ∀ response ∈ act.answer, response.status ≠ 416
  | .single (.reply (some response)) => ∀ process ∈ download.single?, process.2.Served content response
  | _ => True

/-- The histories of calls without a checksum, against servers of this content. -/
def Supplied (content : List UInt8) {Text : Type} :
    Session (Disk Text) Download DownloadCall → Move DownloadCall DownloadEvent → Prop
  | _, .start call => call.task.expectedChecksum = none
  | session, .step event => ∀ process ∈ session.active, process.2.Supplied content event
  | _, _ => True

/-- A single-thread attempt takes no other file of full length for the content, and it truncates no file that a
loadable state counts on. -/
def Unmixed (content : List UInt8) {Text : Type} [SerdeJson Text] :
    Session (Disk Text) Download DownloadCall → Move DownloadCall DownloadEvent → Prop
  | session, .step (.single (.stat true)) =>
      content.length ≤ session.store.length → session.store.contents = some content
  | session, .step (.single (.created true)) =>
      ∀ state ∈ (load session.store.dlstate).toOption, ∀ range ∈ state.workers, range.current ≤ range.start
  | _, _ => True

/-- A loadable state names only right bytes. The file holds a part of the content, or it has its full length. -/
structure Agreeing {Text : Type} [SerdeJson Text] (content : List UInt8) (disk : Disk Text) : Prop where
  named : ∀ state, load disk.dlstate = .ok state → ∀ position, Named state.workers position →
    content[position]? = some (disk.cell position).byte
  shaped : ∀ held, disk.contents = some held → held <+: content ∨ held.length = content.length

variable {Text : Type} [SerdeJson Text] {content : List UInt8} {job : Job} {disk after : Disk Text}

theorem Agreeing.congr (agreeing : Agreeing content disk) (contents : after.contents = disk.contents)
    (dlstate : after.dlstate = disk.dlstate) : Agreeing content after where
  named := by
    intro state loaded position named
    rw [Disk.cell_byte, contents, ← Disk.cell_byte]
    exact agreeing.named state (dlstate ▸ loaded) position named
  shaped := fun held present => agreeing.shaped held (contents ▸ present)

/-- A file that grows along the content keeps every right byte. -/
theorem Agreeing.extend (agreeing : Agreeing content disk) {offset : Nat} {bytes : List UInt8}
    (holds : disk.Holds content offset) (suited : bytes <+: content.drop offset) :
    Agreeing content (disk.write offset bytes) := by
  obtain ⟨held, present, rfl, start⟩ := holds
  have longer := Disk.contents_write present bytes
  have whole := prefix_append_drop start suited
  refine ⟨fun state loaded position named => ?_, fun grown found => Or.inl ?_⟩
  · have right := agreeing.named state loaded position named
    rw [Disk.cell_byte, present] at right
    rw [Disk.cell_byte, longer]
    simp only [Option.getD_some] at right ⊢
    by_cases inside : position < (held ++ bytes).length
    · obtain ⟨rest, same⟩ := whole
      rw [← same, List.getElem?_append_left inside, List.getElem?_eq_getElem inside, Option.getD_some]
    · rw [List.getElem?_eq_none (Nat.le_of_not_lt inside)]
      rw [List.length_append] at inside
      rwa [List.getElem?_eq_none (by omega : held.length ≤ position)] at right
  · obtain rfl := Option.some.inj (longer.symm.trans found)
    exact whole

/-- A step of a single-thread call keeps the saved positions and the file in order. -/
theorem Agreeing.touched (agreeing : Agreeing content disk) {single : Single} {event : SingleEvent}
    (touched : Single.Touched content disk single event after)
    (unnamed : event = .created true → ∀ state, load disk.dlstate = .ok state → ∀ position,
      ¬ Named state.workers position) : Agreeing content after := by
  cases touched with
  | kept _ _ contents dlstate => exact agreeing.congr contents dlstate
  | truncated =>
      refine ⟨fun state loaded position named => absurd named (unnamed rfl state loaded position), ?_⟩
      intro held present
      obtain rfl := Option.some.inj present
      exact Or.inl List.nil_prefix
  | extended _ _ _ holds suited => exact agreeing.extend holds suited

namespace Multi

variable {multi next : Multi} {act : Act}

/-- A transition leaves the contents alone, creates an empty file, or reaches a phase with a file of full length. -/
theorem Tracked.contents_cases (tracked : Tracked (rightBytes (ByteOf content)) job disk multi)
    (change : Change (ByteOf content) .through job disk multi act after next) :
    after.contents = disk.contents ∨ after = disk.openCreate ∨ next.phase.sized = true := by
  cases change with
  | cancelled => exact Or.inl rfl
  | landed _ _ _ _ present carried | lost _ _ _ _ _ present carried =>
      exact absurd carried (tracked.not_carried present)
  | orphanLanded _ _ _ present | orphanLost _ _ _ _ present => exact absurd present tracked.not_dropped
  | worker index event worker moved effect running =>
      exact Or.inr (Or.inr (by cases effect <;> simp [applyEffect, running, Phase.sized]))
  | saver event stopping moved effect during =>
      exact Or.inr (Or.inr (by cases stopping <;> simp [during, Phase.sized]))
  | main event _ phase move =>
      cases move with
      | created => exact Or.inr (Or.inl rfl)
      | resized | settled | join | finalSync | reopened => exact Or.inr (Or.inr rfl)
      | notCreated | notResized | conclude | notReopened => exact Or.inl rfl
      | discarded ok | deleted ok => exact Or.inl (by cases ok <;> rfl)

/-- A step of a multi-thread call keeps the saved positions and the file in order. -/
theorem Tracked.agreeing (tracked : Tracked (rightBytes (ByteOf content)) job disk multi) (level : multi.Level)
    (size : job.fileSize = content.length) (agreeing : Agreeing content disk)
    (change : Change (ByteOf content) .through job disk multi act after next) : Agreeing content after := by
  have moved := tracked.change change (Or.inl (rightBytes_tears _))
  constructor
  · intro state loaded position named
    exact tracked.state_right level size change loaded (agreeing.named state) named
  · intro held present
    rcases tracked.contents_cases change with same | rfl | sized
    · exact agreeing.shaped held (same ▸ present)
    · rw [Disk.contents_openCreate] at present
      cases before : disk.contents with
      | none =>
          rw [before] at present
          obtain rfl := Option.some.inj present
          exact Or.inl List.nil_prefix
      | some kept =>
          rw [before] at present
          exact agreeing.shaped held (before.trans present)
    · obtain ⟨file, opened, length⟩ := moved.sized sized
      simp only [Disk.contents, opened, Option.map_some, Option.some.injEq] at present
      exact Or.inr (by rw [← present, List.length_map, length, size])

end Multi

/-- The probe described this content, without a digest. -/
def Plain (content : List UInt8) (info : FileInfo) : Prop :=
  info.size = some content.length ∧ info.digest = none

/-- These facts hold during a call without a checksum. -/
def Agreed (content : List UInt8) (call : DownloadCall) (disk : Disk Text) (download : Download) : Prop :=
  call.task.expectedChecksum = none ∧ Agreeing content disk ∧
    match download.pc with
    | .parsing | .preparing | .probing | .panicked | .returned (.error _) => True
    | .multi job multi => Plain content job.info ∧
        (Multi.Unbegun job multi ∨ Multi.Tracked (rightBytes (ByteOf content)) job disk multi ∧ multi.Level)
    | .single job single => Plain content job.info ∧ single.Sound content .through job disk
    | .measuring info => Plain content info ∧ ∃ position, disk.Holds content position
    | .returned (.ok _) => disk.contents = some content
    | _ => False

/-- A step of the multi-thread path keeps the file in order. -/
theorem agreed_multi {multi : Multi} {act : Act} {next : Disk Text × Multi} (plain : Plain content job.info)
    (agreeing : Agreeing content disk)
    (state : Multi.Unbegun job multi ∨ Multi.Tracked (rightBytes (ByteOf content)) job disk multi ∧ multi.Level)
    (answered : multi.Answered (ByteOf content) act)
    (satisfiable : ∀ response ∈ act.answer, response.status ≠ 416)
    (taken : Multi.step .through job (disk, multi) act = some next) :
    Agreeing content next.1 ∧
      (Multi.Unbegun job next.2 ∨ Multi.Tracked (rightBytes (ByteOf content)) job next.1 next.2 ∧ next.2.Level) := by
  have size : job.fileSize = content.length := by simp [Job.fileSize, plain.1]
  rcases state with unbegun | ⟨tracked, level⟩
  · rcases unbegun.step_cases taken with ⟨same, still⟩ | ⟨readable, ranges, -, chosen, rfl⟩
    · exact ⟨same ▸ agreeing, Or.inl still⟩
    · exact ⟨agreeing, Or.inr ⟨Multi.begin_right unbegun (fun state loaded _ => agreeing.named state loaded) chosen,
        Multi.begin_level _ _⟩⟩
  · have change := tracked.controlled.step_change answered taken
    exact ⟨tracked.agreeing level size agreeing change,
      Or.inr ⟨tracked.change change (Or.inl (rightBytes_tears _)), level.change satisfiable change⟩⟩

/-- A step of the single-thread path keeps the file in order. -/
theorem agreed_single {single : Single} {event : SingleEvent} {next : Disk Text × Single}
    (plain : Plain content job.info) (agreeing : Agreeing content disk)
    (sound : single.Sound content .through job disk)
    (served : ∀ response, event = .reply (some response) → single.Served content response)
    (complete : event = .stat true → content.length ≤ disk.length → disk.contents = some content)
    (unnamed : event = .created true → ∀ state, load disk.dlstate = .ok state → ∀ position,
      ¬ Named state.workers position)
    (taken : Single.step .through job (disk, single) event = some next) :
    Agreeing content next.1 ∧ next.2.Sound content .through job next.1 := by
  by_cases answered : ∃ response, event = .reply (some response)
  · obtain ⟨response, rfl⟩ := answered
    obtain ⟨existing, resume, at_pc, rfl⟩ := Single.step_reply taken
    have aligned := sound.aligned
    simp only [Single.Aligned, at_pc] at aligned
    obtain ⟨partly, whole⟩ := served response rfl (existing, resume) (by simp [Single.requested, at_pc])
    refine ⟨agreeing, Single.onReply_sound sound at_pc (fun resumes status => ⟨?_, partly resumes status⟩)
      fun written => whole (Single.success_of_written written).1 (Single.success_of_written written).2⟩
    -- The file is shorter than the content, so it is a part of it.
    obtain ⟨-, here, positive, below⟩ := aligned resumes
    have short := below _ plain.1
    obtain ⟨held, present, measured⟩ := Disk.contents_of_pos (here ▸ positive)
    rcases agreeing.shaped held present with start | full
    · exact ⟨held, present, measured.trans here.symm, start⟩
    · omega
  · have unanswered : ∀ response, event ≠ .reply (some response) := fun response same => answered ⟨response, same⟩
    obtain ⟨kept, touched⟩ := sound.step unanswered (fun looks total known reached _ => by
      obtain rfl := Option.some.inj (plain.1.symm.trans known)
      exact ⟨_, content, complete looks reached, rfl, List.prefix_refl content⟩) taken
    exact ⟨agreeing.touched touched unnamed, kept⟩

/-- Each step of a call keeps the file in order. -/
theorem Agreed.step {hasher : Hasher} {call : DownloadCall} {download : Download} {event : DownloadEvent}
    (agreed : Agreed content call disk download) (supplied : download.Supplied content event)
    (complete : event = .single (.stat true) → content.length ≤ disk.length → disk.contents = some content)
    (unnamed : event = .single (.created true) → ∀ state, load disk.dlstate = .ok state → ∀ position,
      ¬ Named state.workers position)
    {next : Disk Text × Download} (taken : Download.step .through hasher call (disk, download) event = some next) :
    Agreed content call next.1 next.2 := by
  obtain ⟨unchecked, agreeing, state⟩ := agreed
  have move := Download.step_move taken
  generalize next.1 = after at move
  generalize next.2 = moved at move
  cases move with
  | cancelled => exact ⟨unchecked, agreeing, state⟩
  | advanced _ pc early => exact ⟨unchecked, agreeing, by rcases early with rfl | rfl <;> trivial⟩
  | failed => exact ⟨unchecked, agreeing, trivial⟩
  | probed info =>
      refine ⟨unchecked, agreeing, ?_⟩
      rcases Download.onProbed_cases call download info with
        panicked | ⟨-, job, multi, same, rfl, begun⟩ | ⟨-, job, same, begun⟩
      · rw [panicked]
        trivial
      · rw [begun]
        exact ⟨same ▸ supplied, Or.inl ⟨Or.inl rfl, rfl, rfl, rfl⟩⟩
      · rw [begun]
        exact ⟨same ▸ supplied, Single.start_sound _ _ _ _ _⟩
  | multi act job multi after at_pc stepped =>
      simp only [at_pc] at state
      obtain ⟨answered, satisfiable⟩ := supplied (job, multi) (by simp [Download.multi?, at_pc])
      obtain ⟨kept, still⟩ := agreed_multi state.1 agreeing state.2 answered satisfiable stepped
      exact ⟨unchecked, kept, state.1, still⟩
  | single event job single after at_pc stepped =>
      simp only [at_pc] at state
      obtain ⟨kept, sound⟩ := agreed_single state.1 agreeing state.2
        (by rintro response rfl; exact supplied (job, single) (by simp [Download.single?, at_pc]))
        (by rintro rfl; exact complete rfl) (by rintro rfl; exact unnamed rfl) stepped
      exact ⟨unchecked, kept, state.1, sound⟩
  | joinedMulti job multi at_pc returned =>
      simp only [at_pc] at state
      obtain ⟨plain, unbegun | ⟨tracked, -⟩⟩ := state
      · exact absurd returned unbegun.outcome
      · have whole := tracked.contents (by simp [Job.fileSize, plain.1]) ((Multi.outcome_iff _ _).mp returned)
        exact ⟨unchecked, agreeing, plain, _, content, whole, rfl, List.prefix_refl content⟩
  | joinedSingle job single at_pc returned =>
      simp only [at_pc] at state
      obtain ⟨plain, sound⟩ := state
      have ended := (Single.outcome_iff _ _).mp returned
      have aligned := sound.aligned
      simp only [Single.Aligned, ended] at aligned
      exact ⟨unchecked, agreeing, plain, aligned⟩
  | measured info at_pc present =>
      simp only [at_pc] at state
      obtain ⟨⟨size, plain⟩, position, held, found, -, start⟩ := state
      refine ⟨unchecked, agreeing, ?_⟩
      rcases Download.onMeasured_cases call download unchecked plain disk.length with
        ⟨error, failed⟩ | ⟨fits, ended⟩
      · rw [failed]
        trivial
      · rw [ended]
        have full := (Disk.length_of_contents found).symm.trans (fits _ size)
        exact found.trans (congrArg some (start.eq_of_length full))
  | verified _ _ _ at_pc | corrupt _ _ _ _ at_pc | removed _ _ at_pc | deleted _ _ at_pc => simp [at_pc] at state

/-- A call whose writes take effect at once leaves exactly the content when it returns without an error. -/
theorem contents_at_once {hasher : Hasher} {moves : List (Move DownloadCall DownloadEvent)}
    {last : Session (Disk Text) Download DownloadCall}
    (run : Run (downloads Text .through hasher).session
      (fun session move => Supplied content session move ∧ Unmixed content session move)
      ⟨⟨none, none⟩, none⟩ moves last)
    {call : DownloadCall} {download : Download} {size : Nat} (active : last.active = some (call, download))
    (returned : download.outcome = some (.ok size)) : last.store.contents = some content := by
  have keeps : (downloads Text .through hasher).Keeps
      (fun session move => Supplied content session move ∧ Unmixed content session move)
      (Agreeing content) (Agreed content) := by
    refine ⟨fun store call agreeing admitted => ⟨admitted.1, agreeing, trivial⟩, ?_,
      fun _ _ _ _ agreed _ _ => agreed.2.1, fun _ _ _ agreed _ => agreed.2.1⟩
    rintro call store download event next agreed ⟨supplied, unmixed⟩ taken
    refine agreed.step (supplied (call, download) rfl) ?_ ?_ taken
    · rintro rfl
      exact unmixed
    · rintro rfl state loaded position ⟨range, member, lower, upper⟩
      have empty := unmixed state (by simp [loaded, Except.toOption]) range member
      omega
  have initial : Agreeing content (⟨none, none⟩ : Disk Text) :=
    ⟨fun _ loaded => (nomatch loaded), fun _ present => (nomatch present)⟩
  have held := keeps.invariant run initial
  obtain ⟨store, process⟩ := last
  obtain rfl := active
  obtain ⟨-, -, state⟩ := held
  have ended := (Download.outcome_iff _ _).mp returned
  simpa only [ended] using state

namespace Download

variable {hasher : Hasher} {call : DownloadCall} {before shown after : Disk Text × Download} {event : DownloadEvent}

/-- What a server supplies does not depend on the writes that are under way. -/
theorem Shadows.supplied (shadows : Shadows before shown) (supplied : before.2.Supplied content event) :
    shown.2.Supplied content event := by
  unfold Supplied at supplied ⊢
  split
  · exact supplied
  · rintro ⟨job, shadow⟩ member
    obtain ⟨multi, present, held⟩ := shadows.multi member
    obtain ⟨answered, satisfiable⟩ := supplied (job, multi) present
    exact ⟨(held.resembles.answered _ _).mpr answered, satisfiable⟩
  · rintro ⟨job, shadow⟩ member
    obtain ⟨single, present, held⟩ := shadows.single member
    have served := supplied (job, single) present
    obtain rfl : shadow = single.landed := held.process
    exact served
  · trivial

/-- An attempt looks at the file only when no write is under way. -/
theorem Shadows.unmixed (shadows : Shadows before shown)
    (unmixed : Unmixed content (⟨before.1, some (call, before.2)⟩ : Session (Disk Text) Download DownloadCall)
      (.step event)) (taken : Download.step .background hasher call before event = some after) :
    Unmixed content (⟨shown.1, some (call, shown.2)⟩ : Session (Disk Text) Download DownloadCall) (.step event) := by
  cases event with
  | single event =>
      cases event with
      | stat readable =>
          cases readable with
          | false => trivial
          | true =>
              have seen := shadows.stat taken
              intro long
              change shown.1.contents = some content
              rw [Disk.contents_seen seen]
              exact unmixed (by rwa [← Disk.length_seen seen])
      | created ok =>
          cases ok with
          | false => trivial
          | true =>
              change ∀ state ∈ (load shown.1.dlstate).toOption, ∀ range ∈ state.workers, range.current ≤ range.start
              rw [shadows.dlstate]
              exact unmixed
      | _ => trivial
  | _ => trivial

end Download

/-- In every history of calls of either path that lose no write and never take another file of full length for the
content, a call that returns without an error leaves exactly the content. -/
theorem exact_contents {io : FileIo} {hasher : Hasher} {moves : List (Move DownloadCall DownloadEvent)}
    {last : Session (Disk Text) Download DownloadCall}
    (run : Run (downloads Text io hasher).session
      (fun session move => (Supplied content session move ∧ Unmixed content session move) ∧
        Download.LandingMove session move) ⟨⟨none, none⟩, none⟩ moves last)
    {call : DownloadCall} {download : Download} {size : Nat} (active : last.active = some (call, download))
    (returned : download.outcome = some (.ok size)) : last.store.contents = some content := by
  cases io with
  | through => exact contents_at_once (run.mono fun _ _ admitted => admitted.1) active returned
  | background =>
      have follows : (downloads Text .background hasher).Follows
          (fun session move => (Supplied content session move ∧ Unmixed content session move) ∧
            Download.LandingMove session move) (downloads Text .through hasher)
          (fun session move => Supplied content session move ∧ Unmixed content session move)
          (fun store shown => shown.faded = store.faded) fun _ => Download.Shadows := by
        constructor
        · intro store shown call seen admitted
          refine ⟨⟨admitted.1.1, trivial⟩, ?_⟩
          exact Download.shadows_outside seen _ (by rintro _ _ ⟨⟩) (by rintro _ _ ⟨⟩)
        · intro call before shown event after shadows admitted taken
          obtain ⟨next, kept, same | followed⟩ := shadows.step (admitted.2 _ rfl) taken
          · exact ⟨next, kept, Or.inl same⟩
          · refine ⟨next, kept, Or.inr ⟨⟨?_, shadows.unmixed admitted.1.2 taken⟩, followed⟩⟩
            intro process active
            obtain rfl := Option.some.inj active
            exact shadows.supplied (admitted.1.1 _ rfl)
        · intro call before shown result shadows admitted returned
          obtain ⟨seen, ended⟩ := shadows.returned returned
          exact ⟨⟨trivial, trivial⟩, ended, seen⟩
        · intro call before shown shadows admitted
          exact ⟨⟨trivial, trivial⟩, shadows.settled (admitted.2 _ rfl)⟩
      have first : Session.Beside (fun store shown => shown.faded = store.faded) (fun _ => Download.Shadows)
          (⟨⟨none, none⟩, none⟩ : Session (Disk Text) Download DownloadCall) ⟨⟨none, none⟩, none⟩ := rfl
      obtain ⟨next, ⟨more, followed⟩, beside⟩ := follows.followed run first
      obtain ⟨shadow, present, shadows⟩ := beside.active active
      obtain ⟨seen, ended⟩ := shadows.returned returned
      rw [← Disk.contents_seen seen]
      exact contents_at_once followed present ended

instance (content : List UInt8) (download : Download) : ∀ event, Decidable (download.Supplied content event)
  | .probed (.ok info) => inferInstanceAs (Decidable (info.size = some content.length ∧ info.digest = none))
  | .multi act => inferInstanceAs (Decidable (∀ process ∈ download.multi?,
      process.2.Answered (ByteOf content) act ∧ ∀ response ∈ act.answer, response.status ≠ 416))
  | .single (.reply (some response)) =>
      inferInstanceAs (Decidable (∀ process ∈ download.single?, process.2.Served content response))
  | .single (.reply none) | .single .cancel | .single .check | .single (.stat _) | .single (.created _) | .single (.opened _)
  | .single (.chunk _) | .single .streamEnd | .single .streamError | .single .wrote | .single (.writeFailed _)
  | .single .land | .single (.lose _) | .single (.flushed _) | .single (.synced _) | .single (.closed _)
  | .single (.measured _) | .single .slept | .single .interrupted | .cancel | .parsed _ | .prepared _
  | .probed (.error _) | .interrupted | .join | .measured _ | .hashed _ | .removed _ | .deleted _ => .isTrue trivial

instance (content : List UInt8) (session : Session (Disk Text) Download DownloadCall) :
    ∀ move, Decidable (Supplied content session move)
  | .start call => inferInstanceAs (Decidable (call.task.expectedChecksum = none))
  | .step event => inferInstanceAs (Decidable (∀ process ∈ session.active, process.2.Supplied content event))
  | .finish | .kill => .isTrue trivial

instance (content : List UInt8) (session : Session (Disk Text) Download DownloadCall) (move) :
    Decidable (Unmixed content session move) := by
  induction move using Move.casesOn with
  | step event =>
      induction event using DownloadEvent.casesOn with
      | single event =>
          induction event using SingleEvent.casesOn with
          | stat ok =>
              induction ok using Bool.casesOn with
              | false => exact .isTrue trivial
              | true => exact inferInstanceAs (Decidable
                  (content.length ≤ session.store.length → session.store.contents = some content))
          | created ok =>
              induction ok using Bool.casesOn with
              | false => exact .isTrue trivial
              | true => exact inferInstanceAs (Decidable (∀ state ∈ (load session.store.dlstate).toOption,
                  ∀ range ∈ state.workers, range.current ≤ range.start))
          | _ => exact .isTrue trivial
      | _ => exact .isTrue trivial
  | _ => exact .isTrue trivial

def twoBytesInfo : FileInfo := ⟨"u", some 2, fits_two, true, some "a", none, none⟩

/-- A call with this thread count begins with its probe. -/
def probeMoves (threadCount : Nat) : List (Move DownloadCall DownloadEvent) :=
  .start ⟨{ url := "u", threadCount := some threadCount }, {}⟩ ::
    [.parsed true, .prepared true, .probed (.ok twoBytesInfo)].map .step

/-- The connection of a single-thread call breaks after the first byte, and the call is cancelled. -/
def singleBrokenMoves : List (Move DownloadCall DownloadEvent) :=
  probeMoves 1 ++ [.check, .stat true, .reply (some ⟨200, none, none, [1]⟩), .created true, .opened true, .chunk 1, .wrote,
    .streamError, .closed true, .cancel, .interrupted].map (fun event => .step (.single event)) ++
  [.step .join, .finish]

/-- A multi-thread call downloads both bytes. -/
def multiMoves : List (Move DownloadCall DownloadEvent) :=
  probeMoves 2 ++ [.main (.load true), .main (.created true), .main (.resized true), .main (.synced true),
    .worker 0 .check, .worker 0 (.reply (some ⟨206, none, none, [1, 2]⟩)), .worker 0 (.opened true),
    .worker 0 (.chunk 2), .worker 0 .wrote, .worker 0 .store, .worker 0 .count, .worker 0 (.flushed true),
    .worker 0 .check, .main .join, .saver (.opened true), .saver .halt, .saver .load, .saver .load,
    .saver (.saved true), .main .conclude, .main (.created true), .main (.synced true),
    .main (.deleted true)].map (fun act => .step (.multi act)) ++
  [.step .join, .step (.measured true)]

/-- A multi-thread call is cancelled after it has resized the file. -/
def multiCancelledMoves : List (Move DownloadCall DownloadEvent) :=
  probeMoves 2 ++ [.main (.load true), .main (.created true), .main (.resized true), .main (.synced true), .cancel,
    .worker 0 .check, .main .join, .saver (.opened true), .saver .halt, .saver .load, .saver .load,
    .saver (.saved true), .main .conclude].map (fun act => .step (.multi act)) ++
  [.step .join, .finish]

/-- A single-thread call takes a file of full length for complete. -/
def singleCompleteMoves : List (Move DownloadCall DownloadEvent) :=
  probeMoves 1 ++ [.step (.single .check), .step (.single (.stat true)), .step .join, .step (.measured true)]

def downloadHistory (moves : List (Move DownloadCall DownloadEvent)) :
    Option (Session (Disk DownloadState) Download DownloadCall) :=
  replay (downloads DownloadState .through anyHasher).session ⟨⟨none, none⟩, none⟩ moves

theorem exact_contents_mixed :
    ((downloadHistory (singleBrokenMoves ++ multiMoves)).get rfl).store.contents = some [1, 2] := by
  have run : Run (downloads DownloadState .through anyHasher).session
      (fun session move => (Supplied [1, 2] session move ∧ Unmixed [1, 2] session move) ∧
        Download.LandingMove session move) ⟨⟨none, none⟩, none⟩
      (singleBrokenMoves ++ multiMoves) ((downloadHistory (singleBrokenMoves ++ multiMoves)).get rfl) :=
    run_of_replay (by decide +kernel) (Option.some_get _).symm
  exact exact_contents run rfl rfl

/-- A file that an interrupted multi-thread call has resized counts as complete for the next single-thread call. -/
theorem inexact_contents :
    ¬ ∀ moves last, Run (downloads DownloadState .through anyHasher).session (Supplied [1, 2])
        ⟨⟨none, none⟩, none⟩ moves last →
      ∀ call download size, last.active = some (call, download) → download.outcome = some (.ok size) →
        last.store.contents = some [1, 2] := by
  intro exactly
  have run : Run (downloads DownloadState .through anyHasher).session (Supplied [1, 2]) ⟨⟨none, none⟩, none⟩
      (multiCancelledMoves ++ singleCompleteMoves)
      ((downloadHistory (multiCancelledMoves ++ singleCompleteMoves)).get rfl) :=
    run_of_replay (by decide +kernel) (Option.some_get _).symm
  exact absurd (exactly _ _ run _ _ _ rfl rfl) (by decide +kernel)

end FastDownloader
