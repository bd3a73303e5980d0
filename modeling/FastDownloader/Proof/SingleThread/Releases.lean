/-
This file proves when single-thread calls of a changing resource never splice two of its versions.
-/

import FastDownloader.Proof.Download.Step
import FastDownloader.Proof.SingleThread.Attempt

namespace FastDownloader

open Foundation

/-- The versions of a resource appear one after another. Each has its own strong tag. -/
structure Releases where
  tag : Nat → String
  content : Nat → List UInt8
  strong : ∀ version, isWeak (tag version) = false
  distinct : ∀ left right, tag left = tag right → left = right

/-- Calls of `download` on one save path, while new versions are published at any moment. -/
def releasedDownloads (Text : Type) [SerdeJson Text] (io : FileIo) (hasher : Hasher) :
    Program (Disk Text × Nat) Download DownloadCall (Option DownloadEvent) (Except Error Nat) where
  start := Download.start
  step := fun call ((disk, current), download) label =>
    match label with
    | none => some ((disk, current + 1), download)
    | some event => (Download.step io hasher call (disk, download) event).map fun next => ((next.1, current), next.2)
  outcome := Download.outcome

namespace Releases

variable {Text : Type} (releases : Releases)

/-- The probe describes a version that was published, and the call takes the single-thread path. An answer serves the
current version, partly only when the validator of the request is its tag. -/
def Answers (current : Nat) (call : DownloadCall) (download : Download) : DownloadEvent → Prop
  | .probed (.ok info) => info.digest = none ∧ call.canMulti info = false ∧
      ∃ version ≤ current, info.etag = some (releases.tag version)
  | .single (.reply (some response)) => ∀ process ∈ download.single?,
      process.2.Served (releases.content current) response ∧
        (response.status = 206 → ∀ request ∈ process.2.requested, request.2 = true →
          process.1.info.ifRangeValidator = some (releases.tag current))
  | _ => True

/-- The histories of single-thread calls without a checksum, against servers that follow `If-Range`. -/
def Conforming : Session (Disk Text × Nat) Download DownloadCall → Move DownloadCall (Option DownloadEvent) → Prop
  | _, .start call => call.task.expectedChecksum = none
  | session, .step (some event) => ∀ process ∈ session.active,
      releases.Answers session.store.2 process.1 process.2 event
  | _, _ => True

/-- A call that may resume finds an empty file, a part of the version that it probed, or as many bytes as it wants. -/
def Resumed : Session (Disk Text × Nat) Download DownloadCall → Move DownloadCall (Option DownloadEvent) → Prop
  | session, .step (some (.probed (.ok info))) => ∀ held ∈ session.store.1.contents,
      info.supportsRange = false ∨ held = [] ∨ (∃ size ∈ info.size, size ≤ held.length) ∨
        ∀ version ≤ session.store.2, info.etag = some (releases.tag version) → held <+: releases.content version
  | _, _ => True

instance (current : Nat) (call : DownloadCall) (download : Download) :
    ∀ event, Decidable (releases.Answers current call download event)
  | .probed (.ok info) => inferInstanceAs (Decidable (info.digest = none ∧ call.canMulti info = false ∧
      ∃ version ≤ current, info.etag = some (releases.tag version)))
  | .single (.reply (some _)) => inferInstanceAs (Decidable (∀ process ∈ download.single?, _ ∧ _))
  | .single (.reply none) | .single .cancel | .single .check | .single (.stat _) | .single (.created _) | .single (.opened _)
  | .single (.chunk _) | .single .streamEnd | .single .streamError | .single .wrote | .single (.writeFailed _)
  | .single .land | .single (.lose _) | .single (.flushed _) | .single (.synced _) | .single (.closed _)
  | .single (.measured _) | .single .slept | .single .interrupted | .cancel | .parsed _ | .prepared _
  | .probed (.error _) | .interrupted | .multi _ | .join | .measured _ | .hashed _ | .removed _ | .deleted _ =>
      .isTrue trivial

instance (session : Session (Disk Text × Nat) Download DownloadCall) :
    ∀ move, Decidable (releases.Conforming session move)
  | .start call => inferInstanceAs (Decidable (call.task.expectedChecksum = none))
  | .step (some event) => inferInstanceAs (Decidable (∀ process ∈ session.active,
      releases.Answers session.store.2 process.1 process.2 event))
  | .step none | .finish | .kill => .isTrue trivial

instance (session : Session (Disk Text × Nat) Download DownloadCall) :
    ∀ move, Decidable (releases.Resumed session move)
  | .step (some (.probed (.ok info))) => inferInstanceAs (Decidable (∀ held ∈ session.store.1.contents,
      info.supportsRange = false ∨ held = [] ∨ (∃ size ∈ info.size, size ≤ held.length) ∨
        ∀ version ≤ session.store.2, info.etag = some (releases.tag version) → held <+: releases.content version))
  | .step (some (.probed (.error _))) | .step (some .cancel) | .step (some (.parsed _))
  | .step (some (.prepared _)) | .step (some .interrupted) | .step (some (.multi _)) | .step (some (.single _))
  | .step (some .join) | .step (some (.measured _)) | .step (some (.hashed _)) | .step (some (.removed _))
  | .step (some (.deleted _)) | .step none | .start _ | .finish | .kill => .isTrue trivial

/-- A version may be streamed by a call when it is the probed one, or when the probed one is gone. -/
def Usable (job : Job) (probed current version : Nat) : Prop :=
  job.info.supportsRange = true → version = probed ∨ probed < current

/-- The data file holds a part of one version. A call can extend it only by this version. -/
structure Renewing (io : FileIo) (current probed : Nat) (job : Job) (disk : Disk Text) (single : Single) : Prop where
  plain : job.info.digest = none
  published : probed ≤ current
  etag : job.info.etag = some (releases.tag probed)
  rooted : ∀ held, disk.contents = some held → ∃ version, held <+: releases.content version ∧
    (Usable job probed current version ∨ ∃ size ∈ job.info.size, size ≤ held.length)
  sound : ∃ version, single.Sound (releases.content version) io job disk ∧
    (Usable job probed current version ∨ ∃ result, single.pc = .returned result)

variable {releases} {io : FileIo} {current probed : Nat} {job : Job} {disk : Disk Text} {single : Single}

/-- A newly published version ends every doubt about the probed one. -/
theorem Renewing.publish (renewing : releases.Renewing io current probed job disk single) :
    releases.Renewing io (current + 1) probed job disk single := by
  have published := renewing.published
  have gone : ∀ version, Usable job probed (current + 1) version := fun _ _ => Or.inr (by omega)
  refine ⟨renewing.plain, by omega, renewing.etag, fun held present => ?_, ?_⟩
  · obtain ⟨version, start, -⟩ := renewing.rooted held present
    exact ⟨version, start, Or.inl (gone version)⟩
  · obtain ⟨version, sound, -⟩ := renewing.sound
    exact ⟨version, sound, Or.inl (gone version)⟩

/-- An answer of the current version starts a stream of this version. -/
theorem Renewing.reply (renewing : releases.Renewing io current probed job disk single)
    {response : Response} (served : single.Served (releases.content current) response)
    (validated : response.status = 206 → ∀ request ∈ single.requested, request.2 = true →
      job.info.ifRangeValidator = some (releases.tag current))
    {next : Disk Text × Single}
    (taken : Single.step io job (disk, single) (.reply (some response)) = some next) :
    releases.Renewing io current probed job next.1 next.2 := by
  obtain ⟨existing, resume, at_pc, rfl⟩ := Single.step_reply taken
  obtain ⟨version, sound, -⟩ := renewing.sound
  have aligned := sound.aligned
  simp only [Single.Aligned, at_pc] at aligned
  obtain ⟨partly, whole⟩ := served (existing, resume) (by simp [Single.requested, at_pc])
  refine ⟨renewing.plain, renewing.published, renewing.etag, renewing.rooted, current,
    Single.onReply_sound sound at_pc (fun resumes status => ⟨?_, partly resumes status⟩)
      fun written => whole (Single.success_of_written written).1 (Single.success_of_written written).2, Or.inl ?_⟩
  · -- The validator of the request is the tag of the probed version, so this version is still the current one.
    have sent := validated status (existing, resume) (by simp [Single.requested, at_pc]) resumes
    have same : probed = current := by
      refine releases.distinct _ _ (Option.some.inj (Eq.trans ?_ sent))
      simp [FileInfo.ifRangeValidator, renewing.etag, releases.strong]
    obtain ⟨ranges, here, positive, below⟩ := aligned resumes
    obtain ⟨held, present, measured⟩ := Disk.contents_of_pos (here ▸ positive)
    obtain ⟨origin, start, usable | ⟨size, known, reached⟩⟩ := renewing.rooted held present
    · have still : origin = current := ((usable ranges).resolve_right (by omega)).trans same
      exact ⟨held, present, measured.trans here.symm, still ▸ start⟩
    · have more := below size known
      omega
  · have published := renewing.published
    exact fun _ => by omega

/-- A file that grows along a usable version, or that is truncated, stays a part of one version. -/
theorem Renewing.touched (renewing : releases.Renewing io current probed job disk single) {version : Nat}
    (usable : Usable job probed current version) {event : SingleEvent} {after : Disk Text}
    (touched : Single.Touched (releases.content version) disk single event after) {held : List UInt8}
    (present : after.contents = some held) : ∃ version, held <+: releases.content version ∧
      (Usable job probed current version ∨ ∃ size ∈ job.info.size, size ≤ held.length) := by
  cases touched with
  | kept _ _ contents => exact renewing.rooted held (contents ▸ present)
  | truncated =>
      obtain rfl := Option.some.inj present
      exact ⟨probed, List.nil_prefix, Or.inl fun _ => Or.inl rfl⟩
  | extended _ offset bytes holds suited =>
      obtain ⟨longer, found, -, start⟩ := holds.write suited
      obtain rfl := Option.some.inj (present.symm.trans found)
      exact ⟨version, start, Or.inl usable⟩

/-- Any other step keeps the file a part of one version. -/
theorem Renewing.step (renewing : releases.Renewing io current probed job disk single)
    {event : SingleEvent} (unanswered : ∀ response, event ≠ .reply (some response)) {next : Disk Text × Single}
    (taken : Single.step io job (disk, single) event = some next) :
    releases.Renewing io current probed job next.1 next.2 := by
  obtain ⟨version, sound, usable | ⟨result, ended⟩⟩ := renewing.sound
  · by_cases full : event = .stat true ∧ 0 < disk.length ∧ ∃ total ∈ job.info.size, total ≤ disk.length
    · -- The file counts as complete. It may belong to another version than the probed one, but only to one.
      obtain ⟨rfl, positive, total, known, reached⟩ := full
      obtain ⟨at_pc, rfl⟩ := Single.step_stat taken
      obtain ⟨held, present, -⟩ := Disk.contents_of_pos positive
      obtain ⟨origin, start, -⟩ := renewing.rooted held present
      have rest : single.Sound (releases.content origin) io job disk :=
        ⟨sound.still, sound.parked, by simp [Single.Aligned, at_pc]⟩
      refine ⟨renewing.plain, renewing.published, renewing.etag, renewing.rooted, origin,
        Single.onStat_sound rest at_pc (fun _ => rfl) (fun _ _ _ _ => ⟨_, held, present, rfl, start⟩), Or.inr ?_⟩
      have counts : (job.info.size.any (fun total => decide (total ≤ disk.length)) && decide (0 < disk.length)) =
          true := by simp [Option.mem_def.mp known, reached, positive]
      simp only [if_true, Single.onStat, counts]
      exact ⟨_, rfl⟩
    · obtain ⟨kept, touched⟩ := sound.step unanswered (fun looks total known reached positive =>
        absurd ⟨looks, positive, total, known, reached⟩ full) taken
      exact ⟨renewing.plain, renewing.published, renewing.etag, fun _ => renewing.touched usable touched,
        version, kept, Or.inl usable⟩
  · obtain ⟨same, still⟩ := sound.returned_step ended taken
    have kept := (sound.step unanswered (by rintro rfl; simp [Single.step, ended] at taken) taken).1
    exact ⟨renewing.plain, renewing.published, renewing.etag, same ▸ renewing.rooted, version, kept,
      Or.inr ⟨result, still⟩⟩

/-- All bytes of the data file come from one version. -/
def Unspliced (releases : Releases) (disk : Disk Text) : Prop :=
  ∀ held, disk.contents = some held → ∃ version, held <+: releases.content version

theorem Renewing.unspliced (renewing : releases.Renewing io current probed job disk single) :
    releases.Unspliced disk := by
  intro held present
  obtain ⟨version, start, -⟩ := renewing.rooted held present
  exact ⟨version, start⟩

/-- These facts hold during a single-thread call without a checksum. -/
def Calling (releases : Releases) (io : FileIo) (call : DownloadCall) (disk : Disk Text) (current : Nat)
    (download : Download) : Prop :=
  call.task.expectedChecksum = none ∧ releases.Unspliced disk ∧
    match download.pc with
    | .parsing | .preparing | .probing | .panicked | .returned (.error _) => True
    | .single job single => ∃ probed, releases.Renewing io current probed job disk single
    | .measuring info => info.digest = none
    | .returned (.ok _) => disk.contents.isSome = true
    | _ => False

/-- A call that follows the validator begins with a file that it may extend. -/
theorem begin_renewing {info : FileInfo} (cancelled : Bool) (plain : info.digest = none) {version : Nat}
    (published : version ≤ current) (etag : info.etag = some (releases.tag version)) (same : job.info = info)
    (unspliced : releases.Unspliced disk)
    (resumed : ∀ held ∈ disk.contents, info.supportsRange = false ∨ held = [] ∨
      (∃ size ∈ info.size, size ≤ held.length) ∨
        ∀ version ≤ current, info.etag = some (releases.tag version) → held <+: releases.content version) :
    releases.Renewing io current version job disk (Single.start cancelled) := by
  subst same
  refine ⟨plain, published, etag, fun held present => ?_, version, Single.start_sound _ _ _ _ _,
    Or.inl fun _ => Or.inl rfl⟩
  rcases resumed held present with ranges | rfl | ⟨size, known, reached⟩ | start
  · obtain ⟨origin, start⟩ := unspliced held present
    exact ⟨origin, start, Or.inl fun supported => by simp [ranges] at supported⟩
  · exact ⟨version, List.nil_prefix, Or.inl fun _ => Or.inl rfl⟩
  · obtain ⟨origin, start⟩ := unspliced held present
    exact ⟨origin, start, Or.inr ⟨size, known, reached⟩⟩
  · exact ⟨version, start version published etag, Or.inl fun _ => Or.inl rfl⟩

/-- A newly published version leaves the file alone. -/
theorem Calling.publish {call : DownloadCall} {download : Download}
    (calling : releases.Calling io call disk current download) :
    releases.Calling io call disk (current + 1) download := by
  obtain ⟨unchecked, unspliced, state⟩ := calling
  refine ⟨unchecked, unspliced, ?_⟩
  generalize download.pc = pc at state ⊢
  cases pc with
  | single job single =>
      obtain ⟨probed, renewing⟩ := state
      exact ⟨probed, renewing.publish⟩
  | returned result => cases result <;> exact state
  | _ => exact state

variable [SerdeJson Text]

/-- Each step of a call keeps the file a part of one version. -/
theorem Calling.step {hasher : Hasher} {call : DownloadCall} {download : Download}
    (calling : releases.Calling io call disk current download) {event : DownloadEvent}
    (answers : releases.Answers current call download event)
    (resumed : ∀ info, event = .probed (.ok info) → ∀ held ∈ disk.contents,
      info.supportsRange = false ∨ held = [] ∨ (∃ size ∈ info.size, size ≤ held.length) ∨
        ∀ version ≤ current, info.etag = some (releases.tag version) → held <+: releases.content version)
    {next : Disk Text × Download} (taken : Download.step io hasher call (disk, download) event = some next) :
    releases.Calling io call next.1 current next.2 := by
  obtain ⟨unchecked, unspliced, state⟩ := calling
  have move := Download.step_move taken
  generalize next.1 = after at move
  generalize next.2 = moved at move
  cases move with
  | cancelled => exact ⟨unchecked, unspliced, state⟩
  | advanced _ pc early => exact ⟨unchecked, unspliced, by rcases early with rfl | rfl <;> trivial⟩
  | failed => exact ⟨unchecked, unspliced, trivial⟩
  | probed info =>
      obtain ⟨plain, alone, version, published, etag⟩ := answers
      refine ⟨unchecked, unspliced, ?_⟩
      rcases Download.onProbed_cases call download info with
        panicked | ⟨parallel, -⟩ | ⟨-, job, same, begun⟩
      · rw [panicked]
        trivial
      · simp [alone] at parallel
      · rw [begun]
        exact ⟨version, begin_renewing _ plain published etag same unspliced (resumed info rfl)⟩
  | multi act job multi _ at_pc => simp [at_pc] at state
  | single event job single after at_pc stepped =>
      simp only [at_pc] at state
      obtain ⟨probed, renewing⟩ := state
      have kept : releases.Renewing io current probed job after.1 after.2 := by
        by_cases answered : ∃ response, event = .reply (some response)
        · obtain ⟨response, rfl⟩ := answered
          obtain ⟨served, validated⟩ := answers (job, single) (by simp [Download.single?, at_pc])
          exact renewing.reply served validated stepped
        · exact renewing.step (fun response same => answered ⟨response, same⟩) stepped
      exact ⟨unchecked, kept.unspliced, probed, kept⟩
  | joinedMulti job multi at_pc => simp [at_pc] at state
  | joinedSingle job single at_pc =>
      simp only [at_pc] at state
      obtain ⟨probed, renewing⟩ := state
      exact ⟨unchecked, unspliced, renewing.plain⟩
  | measured info at_pc present =>
      simp only [at_pc] at state
      refine ⟨unchecked, unspliced, ?_⟩
      rcases Download.onMeasured_cases call download unchecked state disk.length with ⟨error, failed⟩ | ⟨-, ended⟩
      · rw [failed]
        trivial
      · rw [ended]
        simpa [Disk.contents] using present
  | verified _ _ _ at_pc | corrupt _ _ _ _ at_pc | removed _ _ at_pc | deleted _ _ at_pc => simp [at_pc] at state

/-- In every history of single-thread calls each of which resumes only a part of the version that it probed, a call
that returns without an error leaves a file whose bytes all come from one version. -/
theorem never_spliced_single {hasher : Hasher} (absent : disk.data = none)
    {moves : List (Move DownloadCall (Option DownloadEvent))}
    {last : Session (Disk Text × Nat) Download DownloadCall}
    (run : Run (releasedDownloads Text io hasher).session
      (fun session move => releases.Conforming session move ∧ releases.Resumed session move)
      ⟨(disk, current), none⟩ moves last)
    {call : DownloadCall} {download : Download} {size : Nat} (active : last.active = some (call, download))
    (returned : download.outcome = some (.ok size)) :
    ∃ version held, last.store.1.contents = some held ∧ held <+: releases.content version := by
  have keeps : (releasedDownloads Text io hasher).Keeps
      (fun session move => releases.Conforming session move ∧ releases.Resumed session move)
      (fun store => releases.Unspliced store.1)
      (fun call store download => releases.Calling io call store.1 store.2 download) := by
    refine ⟨fun store call unspliced admitted => ⟨admitted.1, unspliced, trivial⟩, ?_,
      fun _ _ _ _ calling _ _ => calling.2.1, fun _ _ _ calling _ => calling.2.1⟩
    rintro call ⟨store, now⟩ download label next calling ⟨conforming, resumed⟩ taken
    cases label with
    | none =>
        cases taken
        exact calling.publish
    | some event =>
        obtain ⟨after, stepped, rfl⟩ := Option.map_eq_some_iff.mp taken
        refine calling.step (conforming (call, download) rfl) ?_ stepped
        rintro info rfl held present
        exact resumed held present
  have held := keeps.invariant run (fun held present => by simp [Disk.contents, absent] at present)
  obtain ⟨⟨store, now⟩, process⟩ := last
  obtain rfl := active
  obtain ⟨-, unspliced, state⟩ := held
  have ended := (Download.outcome_iff _ _).mp returned
  simp only [ended] at state
  obtain ⟨held, present⟩ := Option.isSome_iff_exists.mp state
  obtain ⟨version, start⟩ := unspliced held present
  exact ⟨version, held, present, start⟩

/-- The first version is `[1, 2]`, and all later ones are `[3, 4]`. -/
def twoBytes : Releases where
  tag := fun version => String.ofList (List.replicate (version + 1) 'a')
  content := fun version => if version = 0 then [1, 2] else [3, 4]
  strong := by
    intro version
    simp [isWeak, List.replicate_succ, List.isPrefixOf]
  distinct := by
    intro left right same
    have lengths := congrArg (fun tag => tag.toList.length) same
    simpa using lengths

def twoBytesCall : DownloadCall := ⟨{ url := "u", threadCount := some 1 }, {}⟩

/-- What a probe of this version tells. -/
def twoBytesInfo (version : Nat) : FileInfo :=
  ⟨"u", some 2, by simp, true, some (twoBytes.tag version), none, none⟩

/-- A call begins with a probe of this version. -/
def probedMoves (version : Nat) : List (Move DownloadCall (Option DownloadEvent)) :=
  [.start twoBytesCall, .step (some (.parsed true)), .step (some (.prepared true)),
    .step (some (.probed (.ok (twoBytesInfo version)))), .step (some (.single .check)), .step (some (.single (.stat true)))]

/-- The connection breaks after the first byte of the first version, and the call is cancelled. -/
def brokenMoves : List (Move DownloadCall (Option DownloadEvent)) :=
  probedMoves 0 ++ [.reply (some ⟨200, none, none, [1]⟩), .created true, .opened true, .chunk 1, .wrote, .streamError,
    .closed true, .cancel, .interrupted].map (fun event => .step (some (.single event))) ++
  [.step (some .join), .finish]

/-- The next call resumes behind the first byte. -/
def resumedMoves (version : Nat) (byte : UInt8) : List (Move DownloadCall (Option DownloadEvent)) :=
  probedMoves version ++ [.reply (some ⟨206, none, none, [byte]⟩), .opened true, .chunk 1, .wrote, .streamEnd,
    .closed true, .measured true].map (fun event => .step (some (.single event))) ++
  [.step (some .join), .step (some (.measured true))]

def twoBytesHistory (moves : List (Move DownloadCall (Option DownloadEvent))) :
    Option (Session (Disk DownloadState × Nat) Download DownloadCall) :=
  replay (releasedDownloads DownloadState .through anyHasher).session ⟨(⟨none, none⟩, 0), none⟩ moves

/-- The next call resumes the same version. -/
def continuedMoves : List (Move DownloadCall (Option DownloadEvent)) := brokenMoves ++ resumedMoves 0 2

/-- A new version is published before the next call probes and resumes. -/
def renewedMoves : List (Move DownloadCall (Option DownloadEvent)) :=
  brokenMoves ++ .start twoBytesCall :: .step none :: (resumedMoves 1 4).tail

theorem never_spliced_single_resumed : ∃ version held,
    ((twoBytesHistory continuedMoves).get rfl).store.1.contents = some held ∧ held <+: twoBytes.content version := by
  have run : Run (releasedDownloads DownloadState .through anyHasher).session
      (fun session move => twoBytes.Conforming session move ∧ twoBytes.Resumed session move)
      ⟨(⟨none, none⟩, 0), none⟩ continuedMoves ((twoBytesHistory continuedMoves).get rfl) :=
    run_of_replay (by decide +kernel) (Option.some_get _).symm
  exact never_spliced_single rfl run rfl rfl

/-- The partial file carries no record of its version, so a call of the next version extends it. -/
theorem spliced_single :
    ¬ ∀ moves last, Run (releasedDownloads DownloadState .through anyHasher).session twoBytes.Conforming
        ⟨(⟨none, none⟩, 0), none⟩ moves last →
      ∀ call download size, last.active = some (call, download) → download.outcome = some (.ok size) →
        ∃ version held, last.store.1.contents = some held ∧ held <+: twoBytes.content version := by
  intro unspliced
  have run : Run (releasedDownloads DownloadState .through anyHasher).session twoBytes.Conforming
      ⟨(⟨none, none⟩, 0), none⟩ renewedMoves ((twoBytesHistory renewedMoves).get rfl) :=
    run_of_replay (by decide +kernel) (Option.some_get _).symm
  obtain ⟨version, held, present, start⟩ := unspliced _ _ run _ _ _ rfl rfl
  obtain rfl : held = [1, 4] := Option.some.inj (present.symm.trans (by decide +kernel))
  unfold twoBytes at start
  dsimp only at start
  split at start
  · exact absurd start (by decide)
  · exact absurd start (by decide)

end Releases

end FastDownloader
