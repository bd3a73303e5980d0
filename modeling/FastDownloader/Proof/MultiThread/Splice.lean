/-
This file proves that calls of changing versions never splice two versions together.
-/

import FastDownloader.Proof.MultiThread.Progress
import FastDownloader.Proof.MultiThread.Version

namespace FastDownloader

open Foundation

namespace Multi

variable {Text : Type} [SerdeJson Text] {version : String → List UInt8} {job : Job}
  {disk after : Disk Text} {multi next : Multi} {act : Act} {tag : String}

/-- The call may have overwritten bytes of an earlier state and has not replaced this state yet. -/
def Replacing (job : Job) (multi : Multi) : Prop :=
  job.cfg.stateSaveInterval ≠ 0 ∧
    (multi.phase = .settling ∨ multi.phase = .running ∨ multi.phase = .stopping) ∧ multi.saver.pc ≠ .finished

/-- The file has not been resized yet. -/
def Opening (job : Job) (multi : Multi) : Prop :=
  job.cfg.stateSaveInterval ≠ 0 ∧ (multi.phase = .opening ∨ multi.phase = .sizing) ∧ multi.saver.pc ≠ .finished

/-- Every loadable state carries the tag of this call. -/
def Own (tag : String) (disk : Disk Text) : Prop :=
  ∀ state, load disk.dlstate = .ok state → state.etag = some tag

/-- Saved positions are true, except between the resize and the last checkpoint of a call. -/
def Kept (version : String → List UInt8) (tag : String) (job : Job) (disk : Disk Text) (multi : Multi) : Prop :=
  multi.Replacing job ∨ Rightful version disk ∧
    (Own tag disk ∨ multi.Opening job ∨ ∃ error, multi.phase = .returned (.error error))

/-- A step of a call whose own tag is on disk writes only bytes that this tag allows. -/
theorem Following.own_change (following : Following version tag job disk multi)
    (rightful : Rightful version disk) (own : Own tag disk)
    (change : Change (ByteOf (version tag)) .through job disk multi act after next) :
    Rightful version after ∧ Own tag after := by
  refine ⟨rightful.change following change fun state saved loaded recorded position _ _ => ?_, fun state loaded => ?_⟩
  · rw [Option.some.inj (recorded.symm.trans (own state loaded))]
  · rcases change.load_cases following.tracked.controlled loaded with before | ⟨-, snapshot⟩
    · exact own state before
    · exact snapshot.etag.trans following.probed.etag

/-- A saved checkpoint puts the own state on disk. -/
theorem Following.saved (following : Following version tag job disk multi) {state : DownloadState}
    (taken : Taken job multi.workers state) :
    Rightful version (disk.saveState (SerdeJson.toVec state)) ∧
      Own tag (disk.saveState (SerdeJson.toVec state) : Disk Text) := by
  have controlled := following.tracked.controlled
  have loads : ∀ other, load (disk.saveState (SerdeJson.toVec state) : Disk Text).dlstate = .ok other →
      state = other := fun other loaded =>
    Except.ok.inj ((controlled.load_taken taken).symm.trans loaded)
  constructor
  · intro other loaded
    obtain rfl := loads other loaded
    refine ⟨tag, taken.etag.trans following.probed.etag, taken.fileSize.trans following.probed.fileSize, ?_⟩
    intro position named
    rw [Disk.cell_saveState]
    exact following.tracked.taken_right following.probed.fileSize following.level taken named
  · intro other loaded
    obtain rfl := loads other loaded
    exact taken.etag.trans following.probed.etag

/-- A step keeps the account of the saved positions when its save succeeds. -/
theorem Kept.change (kept : Kept version tag job disk multi) (following : Following version tag job disk multi)
    (saves : act ≠ .saver (.saved false))
    (change : Change (ByteOf (version tag)) .through job disk multi act after next) :
    Kept version tag job after next := by
  rcases kept with ⟨paced, phase, unsaved⟩ | ⟨rightful, own | ⟨paced, phase, unsaved⟩ | ⟨error, returned⟩⟩
  · -- The earlier state may be wrong here, so only the checkpoint of this call ends this part.
    cases change with
    | cancelled => exact Or.inl ⟨paced, phase, unsaved⟩
    | landed | lost | orphanLanded | orphanLost => exact Or.inl ⟨paced, phase, unsaved⟩
    | worker index event worker moved effect => cases effect <;> exact Or.inl ⟨paced, phase, unsaved⟩
    | main event _ target move =>
        cases move with
        | settled ok => exact Or.inl ⟨paced, Or.inr (Or.inl rfl), unsaved⟩
        | join => exact Or.inl ⟨paced, Or.inr (Or.inr rfl), unsaved⟩
        | conclude _ finished => exact absurd finished unsaved
        | created at_phase | notCreated at_phase | resized at_phase | notResized at_phase
        | discarded _ _ at_phase | reopened at_phase | notReopened at_phase | finalSync _ at_phase
        | deleted _ at_phase => rcases phase with same | same | same <;> simp [same] at at_phase
    | saver event stopping moved effect during move =>
        have unended : (∀ state, effect ≠ .save state) → moved.pc ≠ .finished := by
          rintro unwritten ended
          obtain ⟨_, ok, state, _, rfl, written⟩ := move.ended paced ended
          cases ok with
          | false => exact saves rfl
          | true => exact unwritten state written
        cases effect with
        | save state =>
            have saved := following.saved (following.tracked.controlled.saving move)
            exact Or.inr ⟨saved.1, Or.inl saved.2⟩
        | none | sync => exact Or.inl ⟨paced, phase, unended fun _ => SaverEffect.noConfusion⟩
  · exact Or.inr (by
      obtain ⟨right, still⟩ := following.own_change rightful own change
      exact ⟨right, Or.inl still⟩)
  · cases change with
    | cancelled => exact Or.inr ⟨rightful, Or.inr (Or.inl ⟨paced, phase, unsaved⟩)⟩
    | landed _ _ _ _ present carried | lost _ _ _ _ _ present carried =>
        exact absurd carried (following.tracked.not_carried present)
    | orphanLanded _ _ _ present | orphanLost _ _ _ _ present => exact absurd present following.tracked.not_dropped
    | worker index event worker moved effect running => rcases phase with same | same <;> simp [same] at running
    | saver event stopping moved effect during =>
        rcases phase with same | same <;> cases stopping <;> simp [same] at during
    | main event _ target move =>
        cases move with
        | created =>
            refine Or.inr ⟨fun state loaded => ?_, Or.inr (Or.inl ⟨paced, Or.inr rfl, unsaved⟩)⟩
            obtain ⟨saved, recorded, length, bytes⟩ := rightful state loaded
            exact ⟨saved, recorded, length, fun position named => by rw [Disk.cell_openCreate]; exact bytes _ named⟩
        | resized => exact Or.inl ⟨paced, Or.inl rfl, unsaved⟩
        | notCreated | notResized => exact Or.inr ⟨rightful, Or.inr (Or.inr ⟨_, rfl⟩)⟩
        | settled _ at_phase | join at_phase | conclude at_phase | discarded _ _ at_phase | reopened at_phase
        | notReopened at_phase | finalSync _ at_phase | deleted _ at_phase =>
            rcases phase with same | same <;> simp [same] at at_phase
  · cases change with
    | cancelled => exact Or.inr ⟨rightful, Or.inr (Or.inr ⟨error, returned⟩)⟩
    | landed _ _ _ _ present carried | lost _ _ _ _ _ present carried =>
        exact absurd carried (following.tracked.not_carried present)
    | orphanLanded _ _ _ present | orphanLost _ _ _ _ present => exact absurd present following.tracked.not_dropped
    | worker index event worker moved effect running => simp [returned] at running
    | saver event stopping moved effect during => cases stopping <;> simp [returned] at during
    | main event _ target move => cases move <;> simp_all

/-- Calls return, and each state save succeeds. -/
def Returning (version : String → List UInt8) (session : Session (Disk Text) Multi Job) (move : Move Job Act) : Prop :=
  Versioned version session move ∧
    match move with
    | .step (.saver (.saved ok)) => ok = true
    | .kill => False
    | _ => True

instance (session : Session (Disk Text) Multi Job) : ∀ move, Decidable (Returning version session move)
  | .step (.saver (.saved ok)) => inferInstanceAs (Decidable (Versioned version session _ ∧ ok = true))
  | .kill => .isFalse fun never => never.2
  | .start _ | .finish | .step .cancel | .step (.main _) | .step (.worker _ _) | .step (.land _)
  | .step (.lose _ _) | .step (.landOrphan _) | .step (.loseOrphan _ _)
  | .step (.saver (.opened _)) | .step (.saver .tick) | .step (.saver .halt) | .step (.saver .load)
  | .step (.saver (.synced _)) => inferInstanceAs (Decidable (Versioned version session _ ∧ True))

/-- A call that writes no checkpoint loads no state of another version. -/
def Replaceable (session : Session (Disk Text) Multi Job) : Move Job Act → Prop
  | .step (.main (.load _)) => ∀ process ∈ session.active, process.1.cfg.stateSaveInterval = 0 →
      ∀ state ∈ (load session.store.dlstate).toOption, state.etag = process.1.info.etag
  | _ => True

instance (session : Session (Disk Text) Multi Job) : ∀ move, Decidable (Replaceable session move)
  | .step (.main (.load _)) => inferInstanceAs (Decidable (∀ process ∈ session.active,
      process.1.cfg.stateSaveInterval = 0 →
        ∀ state ∈ (load session.store.dlstate).toOption, state.etag = process.1.info.etag))
  | .start _ | .finish | .kill | .step .cancel | .step (.worker _ _) | .step (.saver _) | .step (.land _)
  | .step (.lose _ _) | .step (.landOrphan _) | .step (.loseOrphan _ _) | .step (.main (.created _))
  | .step (.main (.resized _)) | .step (.main (.synced _)) | .step (.main .join) | .step (.main .conclude)
  | .step (.main (.deleted _)) => .isTrue trivial

/-- These are the sessions of calls that return and replace the states of other versions. -/
abbrev Replaced (version : String → List UInt8) (session : Session (Disk Text) Multi Job) (move : Move Job Act) :
    Prop :=
  Returning version session move ∧ Replaceable session move

/-- A call whose writes take effect at once leaves the content of the version that its probe described. -/
theorem one_version {moves : List (Move Job Act)} {last : Session (Disk Text) Multi Job}
    (fresh : disk.dlstate = none)
    (run : Run (multiThread Text .through).session (Replaced version) ⟨disk, none⟩ moves last)
    (active : last.active = some (job, multi)) (returned : multi.outcome = some (.ok ())) :
    ∃ tag, Probed version job tag ∧ last.store.contents = some (version tag) := by
  have keeps := keeps_of_begun .through (Replaced version) (fun job => ∃ tag, Probed version job tag)
    (Rightful version)
    (fun job (store : Disk Text) multi => ∃ tag, Following version tag job store multi ∧
      Kept version tag job store multi)
    (fun _ _ admitted => admitted.1.1) ?_ ?_ ?_ (fun _ _ _ _ admitted => admitted.1.2.elim)
  · have held := keeps.invariant run (by
      intro state loaded
      rw [fresh] at loaded
      cases loaded)
    obtain ⟨store, process⟩ := last
    cases active
    have ended := (outcome_iff _ _).mp returned
    obtain ⟨-, ⟨unbegun, -⟩ | ⟨tag, following, -⟩⟩ := held
    · exact absurd returned unbegun.outcome
    · exact ⟨tag, following.probed, following.tracked.contents following.probed.fileSize ended⟩
  · rintro job store multi readable ranges ⟨tag, probed⟩ rightful unbegun admitted chosen
    refine ⟨tag, begin_following probed rightful unbegun chosen, Or.inr ⟨rightful, ?_⟩⟩
    by_cases paced : job.cfg.stateSaveInterval = 0
    · refine Or.inl fun state loaded => ?_
      exact (admitted.2 (job, multi) rfl paced state (by simp [loaded, Except.toOption])).trans probed.etag
    · refine Or.inr (Or.inl ⟨paced, Or.inl rfl, ?_⟩)
      simp [Multi.begin, unbegun.saver, Saver.init]
  · rintro job store multi act next - ⟨tag, following, kept⟩ admitted taken
    obtain ⟨answered, satisfiable⟩ := admitted.1.1 (job, multi) rfl tag following.probed.validator
    have change := following.tracked.controlled.step_change answered taken
    refine ⟨tag, following.change satisfiable change, kept.change following ?_ change⟩
    rintro rfl
    exact Bool.false_ne_true admitted.1.2
  · rintro job store multi result ⟨tag, following, kept⟩ - returned
    have ended := (outcome_iff _ _).mp returned
    rcases kept with ⟨-, same | same | same, -⟩ | ⟨rightful, -⟩
    · simp [same] at ended
    · simp [same] at ended
    · simp [same] at ended
    · exact rightful

omit [SerdeJson Text] in
/-- The answers of a version are the same for two calls that differ in writes that are under way. -/
theorem Alike.versioned {session shown : Session (Disk Text) Multi Job} {move : Move Job Act}
    (alike : Alike session shown) (admitted : Versioned version session move) : Versioned version shown move := by
  cases move with
  | start | finish | kill => exact admitted
  | step act =>
      rintro ⟨job, shadow⟩ active tag validates
      obtain ⟨multi, present, resembles⟩ := Session.Beside.shadowed alike active
      obtain ⟨answered, satisfiable⟩ := admitted (job, multi) present tag validates
      exact ⟨(resembles.answered _ _).mpr answered, satisfiable⟩

theorem Alike.replaced {session shown : Session (Disk Text) Multi Job} {move : Move Job Act}
    (alike : Alike session shown) (admitted : Replaced version session move) : Replaced version shown move := by
  obtain ⟨⟨versioned, returning⟩, replaceable⟩ := admitted
  refine ⟨⟨alike.versioned versioned, returning⟩, ?_⟩
  unfold Replaceable at replaceable ⊢
  split
  · rintro ⟨job, shadow⟩ active
    obtain ⟨multi, present, resembles⟩ := Session.Beside.shadowed alike active
    rw [show shown.store.dlstate = session.store.dlstate from resembles.dlstate]
    exact replaceable (job, multi) present
  · trivial

/-- In every history of calls that return, lose no write and replace the states of other versions, a call without an
error leaves the content of the one version that its probe described, together with the bytes that it kept from earlier
calls. -/
theorem never_spliced {io : FileIo} {moves : List (Move Job Act)} {last : Session (Disk Text) Multi Job}
    (fresh : disk.dlstate = none)
    (run : Run (multiThread Text io).session
      (fun session move => Replaced version session move ∧ LandingMove session move) ⟨disk, none⟩ moves last)
    (active : last.active = some (job, multi)) (returned : multi.outcome = some (.ok ())) :
    ∃ tag, Probed version job tag ∧ last.store.contents = some (version tag) := by
  obtain ⟨more, shown, led, alike⟩ := session_alike run fun _ _ _ alike => alike.replaced
  obtain ⟨shadow, present, resembles⟩ := Session.Beside.active alike active
  obtain ⟨tag, probed, contents⟩ := one_version fresh led present (resembles.outcome.trans returned)
  exact ⟨tag, probed, Disk.contents_seen (resembles.returned returned) ▸ contents⟩

/-- A call of the second replica is cancelled, and then a call of the first replica runs to its end. -/
def cancelledMoves : List (Move Job Act) :=
  .start otherByte ::
    [.main (.load true), .main (.created true), .main (.resized true), .main (.synced true), .cancel,
      .worker 0 .check, .main .join, .saver (.opened true), .saver .halt, .saver .load, .saver .load,
      .saver (.saved true), .main .conclude].map .step ++
    .finish :: .start oneByte :: .step (.main (.load true)) :: oneByteActs.map .step

theorem never_spliced_cancelled : ∃ tag, Probed replicas oneByte tag ∧
    ((replicaHistory cancelledMoves).get rfl).store.contents = some (replicas tag) := by
  have run : Run (multiThread DownloadState .through).session
      (fun session move => Replaced replicas session move ∧ LandingMove session move) ⟨⟨none, none⟩, none⟩
      cancelledMoves ((replicaHistory cancelledMoves).get rfl) :=
    run_of_replay (by decide +kernel) (Option.some_get _).symm
  exact never_spliced rfl run rfl rfl

/-- Two replicas of two bytes serve these contents. -/
def twoReplicas (tag : String) : List UInt8 := if tag = "a" then [7, 7] else [9, 9]

def replicaJob (tag : String) : Job := { twoBytes with info := ⟨"u", some 2, fits_two, true, some tag, none, none⟩ }

/-- A call of the first replica is cancelled after one byte. One of the second replica overwrites this byte and writes
no checkpoint. The next call of the first replica loads only the other byte. -/
def splicedMoves : List (Move Job Act) :=
  .start (replicaJob "a") ::
    (partActs 7 [.saver (.opened true), .saver .halt, .saver .load, .saver .load, .saver (.saved true)]).map .step ++
    .finish :: unpacedMoves (replicaJob "b") 9 ++
    .finish :: .start (replicaJob "a") :: .step (.main (.load true)) :: oneByteActs.map .step

/-- A call without checkpoints keeps the state of another version beside its own bytes. A call that drops a handle with
its write returns before this byte is in the file. -/
theorem version_spliced :
    ¬ (∀ moves last, Run (multiThread DownloadState .through).session (Returning twoReplicas) ⟨⟨none, none⟩, none⟩
        moves last →
      ∀ job multi, last.active = some (job, multi) → multi.outcome = some (.ok ()) →
        ∃ tag, Probed twoReplicas job tag ∧ last.store.contents = some (twoReplicas tag)) ∧
    ¬ (∀ moves last, Run (multiThread DownloadState .background).session
        (fun session move => Replaced twoReplicas session move ∧ Written move) ⟨⟨none, none⟩, none⟩ moves last →
      ∀ job multi, last.active = some (job, multi) → multi.outcome = some (.ok ()) →
        ∃ tag, Probed twoReplicas job tag ∧ last.store.contents = some (twoReplicas tag)) := by
  constructor
  · intro whole
    have run : Run (multiThread DownloadState .through).session (Returning twoReplicas) ⟨⟨none, none⟩, none⟩
        splicedMoves ((brokenHistory .through splicedMoves).get rfl) :=
      run_of_replay (by decide +kernel) (Option.some_get _).symm
    obtain ⟨tag, probed, contents⟩ := whole _ _ run _ _ rfl rfl
    obtain rfl := Option.some.inj probed.etag
    exact absurd contents (by decide +kernel)
  · intro whole
    have run : Run (multiThread DownloadState .background).session
        (fun session move => Replaced twoReplicas session move ∧ Written move) ⟨⟨none, none⟩, none⟩
        (.start (replicaJob "a") :: droppedActs.map .step)
        ((brokenHistory .background (.start (replicaJob "a") :: droppedActs.map .step)).get rfl) :=
      run_of_replay (by decide +kernel) (Option.some_get _).symm
    obtain ⟨tag, probed, contents⟩ := whole _ _ run _ _ rfl rfl
    obtain rfl := Option.some.inj probed.etag
    exact absurd contents (by decide +kernel)

end Multi

end FastDownloader
