/-
This file proves when saved positions stay true to the version of the resource that they were taken from.
-/

import FastDownloader.Proof.MultiThread.Restart

namespace FastDownloader

open Foundation

/-- The probe of a call describes the version with this strong tag. -/
structure Probed (version : String → List UInt8) (job : Job) (tag : String) : Prop where
  etag : job.info.etag = some tag
  strong : isWeak tag = false
  size : job.info.size = some (version tag).length

theorem Probed.fileSize {version : String → List UInt8} {job : Job} {tag : String}
    (probed : Probed version job tag) : job.fileSize = (version tag).length := by
  simp [Job.fileSize, probed.size]

/-- A strong tag is the validator of every request. -/
theorem Probed.validator {version : String → List UInt8} {job : Job} {tag : String}
    (probed : Probed version job tag) : job.info.ifRangeValidator = some tag := by
  simp [FileInfo.ifRangeValidator, probed.etag, probed.strong]

/-- Each call probes one version. A 206 carries bytes of the version whose tag was sent. No answer is 416. -/
def Versioned (version : String → List UInt8) {Text : Type} (session : Session (Disk Text) Multi Job) :
    Move Job Act → Prop
  | .start job => ∃ tag, Probed version job tag
  | .step act => ∀ process ∈ session.active, ∀ tag ∈ process.1.info.ifRangeValidator,
      process.2.Answered (ByteOf (version tag)) act ∧ ∀ response ∈ act.answer, response.status ≠ 416
  | _ => True

instance (version : String → List UInt8) (job : Job) : Decidable (∃ tag, Probed version job tag) :=
  decidable_of_iff (∃ tag ∈ job.info.etag, isWeak tag = false ∧ job.info.size = some (version tag).length)
    ⟨fun ⟨tag, etag, strong, size⟩ => ⟨tag, etag, strong, size⟩,
      fun ⟨tag, probed⟩ => ⟨tag, probed.etag, probed.strong, probed.size⟩⟩

instance (version : String → List UInt8) {Text : Type} (session : Session (Disk Text) Multi Job) :
    ∀ move, Decidable (Versioned version session move)
  | .start job => inferInstanceAs (Decidable (∃ tag, Probed version job tag))
  | .step act => inferInstanceAs (Decidable (∀ process ∈ session.active, ∀ tag ∈ process.1.info.ifRangeValidator,
      process.2.Answered (ByteOf (version tag)) act ∧ ∀ response ∈ act.answer, response.status ≠ 416))
  | .finish | .kill => .isTrue trivial

/-- An equal strong tag is needed for a resume. -/
theorem tag_of_matches {state : DownloadState} {saved tag : String} {lastModified : Option String}
    (recorded : state.etag = some saved) (accepted : state.matchesResource (some tag) lastModified = true) :
    saved = tag := by
  by_contra different
  simp [DownloadState.matchesResource, recorded, different] at accepted

namespace Multi

variable {Text : Type} {right : Nat → UInt8 → Prop} {version : String → List UInt8} {job : Job}
  {disk after : Disk Text} {multi next : Multi} {act : Act}

/-- The step cuts the file at this offset or writes a byte there. -/
def Touches (job : Job) (multi : Multi) : Act → Nat → Prop
  | .main (.resized true), position => multi.phase = .sizing ∧ job.fileSize ≤ position
  | .worker index event, position => ∃ worker offset length, multi.workers[index]? = some worker ∧
      worker.touching event = some (offset, length) ∧ offset ≤ position ∧ position < offset + length
  | _, _ => False

/-- A transition leaves a byte alone, or it writes a right one. -/
theorem Tracked.byte_cases [SerdeJson Text] {ledger : Ledger right} (tracked : Tracked ledger job disk multi)
    (change : Change right .through job disk multi act after next) (position : Nat) :
    (after.cell position).byte = (disk.cell position).byte ∨
      Touches job multi act position ∧ (position < job.fileSize → right position (after.cell position).byte) := by
  cases change with
  | cancelled => exact Or.inl rfl
  | landed _ _ _ _ present carried | lost _ _ _ _ _ present carried =>
      exact absurd carried (tracked.not_carried present)
  | orphanLanded _ _ _ present | orphanLost _ _ _ _ present => exact absurd present tracked.not_dropped
  | saver event stopping moved effect =>
      cases effect with
      | none | save => exact Or.inl rfl
      | sync => exact Or.inl (Disk.byte_sync position)
  | main event _ phase move =>
      cases move with
      | notCreated | notResized | join | conclude | reopened | notReopened => exact Or.inl rfl
      | created => exact Or.inl (by rw [Disk.cell_openCreate])
      | resized at_phase =>
          by_cases inside : position < job.fileSize
          · exact Or.inl (by rw [Disk.cell_setLen inside])
          · exact Or.inr ⟨⟨at_phase, Nat.le_of_not_lt inside⟩, fun below => absurd below inside⟩
      | settled ok | finalSync ok =>
          cases ok with
          | false => exact Or.inl rfl
          | true => exact Or.inl (Disk.byte_sync position)
      | discarded ok | deleted ok => exact Or.inl (by cases ok <;> rfl)
  | worker index event worker moved effect running present facts parked =>
      have opened := (tracked.sized (by simp [running, Phase.sized])).isSome
      have written : ∀ bytes, Matches right worker.handed bytes →
          worker.touching event = some (worker.handed, bytes.length) →
          ((disk.write worker.handed bytes).cell position).byte = (disk.cell position).byte ∨
            Touches job multi (.worker index event) position ∧ (position < job.fileSize →
              right position ((disk.write worker.handed bytes).cell position).byte) := by
        intro bytes suited touched
        by_cases covered : Covers worker.handed bytes position
        · refine Or.inr ⟨⟨worker, _, _, present, touched, covered⟩, fun _ => ?_⟩
          obtain ⟨byte, fits, replaced⟩ := Disk.cell_write_matches opened suited covered
          rw [replaced]
          exact fits
        · exact Or.inl (by rw [Disk.cell_write_outside covered])
      cases facts.moved with
      | control | stored | counted | marked | passed | dropped => exact Or.inl rfl
      | wrote bytes mode accepts flight touched => exact written bytes accepts.suited touched
      | torn bytes kept mode failed suited bounded still flight touched => exact written bytes suited touched

/-- A byte of the content stays one, because only right bytes are written over it. -/
theorem Tracked.byte_stays [SerdeJson Text] {content : List UInt8}
    (tracked : Tracked (rightBytes (ByteOf content)) job disk multi) (size : job.fileSize = content.length)
    (change : Change (ByteOf content) .through job disk multi act after next) {position : Nat}
    (held : content[position]? = some (disk.cell position).byte) :
    content[position]? = some (after.cell position).byte := by
  rcases tracked.byte_cases change position with same | ⟨_, suited⟩
  · rwa [same]
  · have inside : position < job.fileSize := size ▸ (List.getElem?_eq_some_iff.mp held).1
    rw [suited inside _ held, held]

/-- A snapshot of the call names only bytes of the content. -/
theorem Tracked.taken_right {content : List UInt8}
    (tracked : Tracked (rightBytes (ByteOf content)) job disk multi) (size : job.fileSize = content.length)
    (level : multi.Level) {state : DownloadState} (taken : Taken job multi.workers state) {position : Nat}
    (named : Named state.workers position) : content[position]? = some (disk.cell position).byte := by
  have cover := taken.cover tracked.controlled.tiles
    fun worker member => (tracked.controlled.bounded worker member).2
  have inside : position < content.length := size ▸ cover.named_lt named
  have present := List.getElem?_eq_getElem inside
  rw [tracked.taken_done level taken named _ present]
  exact present

/-- The bytes that a state names stay right, and those of a new state are right. -/
theorem Tracked.state_right [SerdeJson Text] {content : List UInt8}
    (tracked : Tracked (rightBytes (ByteOf content)) job disk multi) (level : multi.Level)
    (size : job.fileSize = content.length)
    (change : Change (ByteOf content) .through job disk multi act after next) {state : DownloadState}
    (loaded : load after.dlstate = .ok state)
    (agrees : load disk.dlstate = .ok state → ∀ position, Named state.workers position →
      content[position]? = some (disk.cell position).byte)
    {position : Nat} (named : Named state.workers position) :
    content[position]? = some (after.cell position).byte := by
  refine tracked.byte_stays size change ?_
  rcases change.load_cases tracked.controlled loaded with before | ⟨-, snapshot⟩
  · exact agrees before position named
  · exact tracked.taken_right size level snapshot named

/-- Every loadable state carries a tag, and the bytes that it names are those of the version with this tag. -/
def Rightful [SerdeJson Text] (version : String → List UInt8) (disk : Disk Text) : Prop :=
  ∀ state, load disk.dlstate = .ok state → ∃ tag, state.etag = some tag ∧
    state.fileSize = (version tag).length ∧
    ∀ position, Named state.workers position → (version tag)[position]? = some (disk.cell position).byte

/-- A call of one version whose file follows this version. -/
structure Following (version : String → List UInt8) (tag : String) (job : Job) (disk : Disk Text)
    (multi : Multi) : Prop where
  probed : Probed version job tag
  tracked : Tracked (rightBytes (ByteOf (version tag))) job disk multi
  level : multi.Level

variable [SerdeJson Text] {tag : String}

/-- The call begins with bytes of its own version. -/
theorem begin_following {ranges : List WorkerRange} {readable : Bool} (probed : Probed version job tag)
    (rightful : Rightful version disk) (unbegun : Unbegun job multi)
    (chosen : chooseRanges job job.fileSize (if readable then disk.dlstate else none) = some ranges) :
    Following version tag job disk (multi.begin ranges) := by
  refine ⟨probed, begin_right unbegun (fun state loaded accepted position named => ?_) chosen, begin_level _ _⟩
  obtain ⟨saved, recorded, _, bytes⟩ := rightful state loaded
  have matched := ((resumable_iff _ _ _).mp accepted).2.2
  rw [probed.etag] at matched
  obtain rfl := tag_of_matches recorded matched
  exact bytes position named

/-- A step of the call keeps to its version. -/
theorem Following.change (following : Following version tag job disk multi)
    (satisfiable : ∀ response ∈ act.answer, response.status ≠ 416)
    (change : Change (ByteOf (version tag)) .through job disk multi act after next) :
    Following version tag job after next :=
  ⟨following.probed, following.tracked.change change (Or.inl (rightBytes_tears _)),
    following.level.change satisfiable change⟩

/-- A byte of the version stays one. -/
theorem Following.kept (following : Following version tag job disk multi)
    (change : Change (ByteOf (version tag)) .through job disk multi act after next) {position : Nat}
    (held : (version tag)[position]? = some (disk.cell position).byte) :
    (version tag)[position]? = some (after.cell position).byte :=
  following.tracked.byte_stays following.probed.fileSize change held

/-- A snapshot of the call names only bytes of its version. -/
theorem Following.taken (following : Following version tag job disk multi)
    (change : Change (ByteOf (version tag)) .through job disk multi act after next) {state : DownloadState}
    (taken : Taken job multi.workers state) {position : Nat} (named : Named state.workers position) :
    (version tag)[position]? = some (after.cell position).byte :=
  following.kept change (following.tracked.taken_right following.probed.fileSize following.level taken named)

/-- A step keeps all saved positions true when it touches no offset where the saved version differs. -/
theorem Rightful.change (rightful : Rightful version disk) (following : Following version tag job disk multi)
    (change : Change (ByteOf (version tag)) .through job disk multi act after next)
    (harmless : ∀ state saved, load disk.dlstate = .ok state → state.etag = some saved →
      ∀ position, Named state.workers position → Touches job multi act position →
        (version saved)[position]? = (version tag)[position]?) :
    Rightful version after := by
  intro state loaded
  rcases change.load_cases following.tracked.controlled loaded with before | ⟨-, snapshot⟩
  · obtain ⟨saved, recorded, length, bytes⟩ := rightful state before
    refine ⟨saved, recorded, length, fun position named => ?_⟩
    have held := bytes position named
    rcases following.tracked.byte_cases change position with same | ⟨touched, -⟩
    · rwa [same]
    · have agree := harmless state saved before recorded position named touched
      rw [agree] at held ⊢
      exact following.kept change held
  · exact ⟨tag, snapshot.etag.trans following.probed.etag,
      snapshot.fileSize.trans following.probed.fileSize, fun position named =>
        following.taken change snapshot named⟩

/-- No step touches an offset that a loadable state names, where the version of the state differs from the
version of the call. -/
def Harmless (version : String → List UInt8) (session : Session (Disk Text) Multi Job) (move : Move Job Act) : Prop :=
  ∀ job multi act, session.active = some (job, multi) → move = .step act →
    ∀ state saved tag, load session.store.dlstate = .ok state → state.etag = some saved →
      job.info.etag = some tag → ∀ position, Named state.workers position → Touches job multi act position →
        (version saved)[position]? = (version tag)[position]?

/-- In every history whose steps are all harmless, the state file stays true to the version with its tag, also when
this state was discarded by a call or a call was killed. -/
theorem discarded_rightful {moves : List (Move Job Act)} {last : Session (Disk Text) Multi Job}
    (fresh : disk.dlstate = none)
    (run : Run (multiThread Text .through).session
      (fun session move => Versioned version session move ∧ Harmless version session move)
      ⟨disk, none⟩ moves last)
    {state : DownloadState} (loaded : load last.store.dlstate = .ok state) (recorded : state.etag = some tag)
    {position : Nat} (named : Named state.workers position) :
    (version tag)[position]? = some (last.store.cell position).byte := by
  have keeps := keeps_of_begun .through
    (fun (session : Session (Disk Text) Multi Job) move =>
      Versioned version session move ∧ Harmless version session move)
    (fun job => ∃ tag, Probed version job tag) (Rightful version)
    (fun job (store : Disk Text) multi => ∃ tag, Following version tag job store multi ∧ Rightful version store)
    (fun _ _ admitted => admitted.1) ?_ ?_
    (fun _ _ _ _ ⟨_, _, held⟩ _ _ => held) (fun _ _ _ ⟨_, _, held⟩ _ => held)
  · have held := keeps.invariant run (by
      intro state loaded
      rw [fresh] at loaded
      cases loaded)
    have rightful : Rightful version last.store := by
      obtain ⟨store, active⟩ := last
      cases active with
      | none => exact held
      | some process =>
          obtain ⟨-, ⟨-, held⟩ | ⟨_, -, held⟩⟩ := held
          · exact held
          · exact held
    obtain ⟨saved, same, _, bytes⟩ := rightful state loaded
    obtain rfl := Option.some.inj (recorded.symm.trans same)
    exact bytes position named
  · rintro job store multi readable ranges ⟨tag, probed⟩ rightful unbegun _ chosen
    exact ⟨tag, begin_following probed rightful unbegun chosen, rightful⟩
  · rintro job store multi act next - ⟨tag, following, rightful⟩ admitted taken
    obtain ⟨answered, satisfiable⟩ := admitted.1 (job, multi) rfl tag following.probed.validator
    have change := following.tracked.controlled.step_change answered taken
    exact ⟨tag, following.change satisfiable change, rightful.change following change
      fun state saved loaded recorded => admitted.2 job multi act rfl rfl state saved tag loaded recorded
        following.probed.etag⟩

/-- The positions that a step touches can be computed. -/
def touches (job : Job) (multi : Multi) : Act → Nat → Bool
  | .main (.resized _), position => job.fileSize ≤ position
  | .worker index event, position => (multi.workers[index]?.bind fun worker => worker.touching event).any fun wrote =>
      wrote.1 ≤ position && position < wrote.1 + wrote.2
  | _, _ => false

theorem touches_of_touched {position : Nat} (touched : Touches job multi act position) :
    touches job multi act position = true := by
  cases act with
  | main event =>
      cases event with
      | resized ok =>
          cases ok with
          | true => exact decide_eq_true touched.2
          | false => cases touched
      | _ => cases touched
  | worker index event =>
      obtain ⟨worker, offset, length, present, wrote, lower, upper⟩ := touched
      simp [touches, present, wrote, lower, upper]
  | _ => cases touched

/-- No step touches a saved position at which the saved version and the version of the call differ. -/
def Spared (version : String → List UInt8) (session : Session (Disk Text) Multi Job) : Move Job Act → Prop
  | .step act => ∀ process ∈ session.active, ∀ state ∈ (load session.store.dlstate).toOption,
      ∀ range ∈ state.workers, ∀ position ∈ List.range range.current, range.start ≤ position →
        touches process.1 process.2 act position = true →
          (state.etag.bind fun saved => (version saved)[position]?) =
            process.1.info.etag.bind fun tag => (version tag)[position]?
  | _ => True

instance (version : String → List UInt8) (session : Session (Disk Text) Multi Job) (move : Move Job Act) :
    Decidable (Spared version session move) := by
  induction move using Move.casesOn with
  | step act =>
      exact inferInstanceAs (Decidable (∀ process ∈ session.active, ∀ state ∈ (load session.store.dlstate).toOption,
        ∀ range ∈ state.workers, ∀ position ∈ List.range range.current, range.start ≤ position →
          touches process.1 process.2 act position = true →
            (state.etag.bind fun saved => (version saved)[position]?) =
              process.1.info.etag.bind fun tag => (version tag)[position]?))
  | _ => exact .isTrue trivial

theorem harmless_of_spared {session : Session (Disk Text) Multi Job} {move : Move Job Act}
    (spared : Spared version session move) : Harmless version session move := by
  rintro job multi act active rfl state saved tag loaded recorded tagged position ⟨range, member, lower, upper⟩ touched
  have same := spared (job, multi) active state (by rw [loaded]; rfl) range member position (List.mem_range.mpr upper)
    lower (touches_of_touched touched)
  rwa [recorded, tagged, Option.bind_some, Option.bind_some] at same

/-- Two replicas behind one address serve these contents. -/
def replicas (tag : String) : List UInt8 := if tag = "a" then [7] else [9]

def otherByte : Job := { oneByte with info := ⟨"u", some 1, fits_one, true, some "b", none, none⟩ }

/-- A call of the first replica is killed after its last checkpoint. -/
def savedMoves : List (Move Job Act) :=
  .start oneByte :: .step (.main (.load true)) :: (oneByteActs.take 18).map .step ++ [.kill]

/-- A call of the second replica discards the state and writes the first byte. -/
def clobberMoves : List (Move Job Act) :=
  savedMoves ++ .start otherByte ::
    [.main (.load true), .main (.created true), .main (.resized true), .main (.synced true), .worker 0 .check,
      .worker 0 (.reply (some ⟨206, none, none, [9]⟩)), .worker 0 (.opened true), .worker 0 (.chunk 1),
      .worker 0 .wrote].map .step

def replicaHistory (moves : List (Move Job Act)) : Option (Session (Disk DownloadState) Multi Job) :=
  replay (multiThread DownloadState .through).session ⟨⟨none, none⟩, none⟩ moves

/-- A call of the second replica discards the state, and its first checkpoint replaces the state before it writes. -/
def replacedMoves : List (Move Job Act) :=
  savedMoves ++ .start otherByte ::
    [.main (.load true), .main (.created true), .main (.resized true), .main (.synced true), .saver (.opened true),
      .saver .tick, .saver .load, .saver .load, .saver (.saved true), .worker 0 .check,
      .worker 0 (.reply (some ⟨206, none, none, [9]⟩)), .worker 0 (.opened true), .worker 0 (.chunk 1),
      .worker 0 .wrote, .worker 0 .store, .saver .tick, .saver .load, .saver .load, .saver (.saved true)].map .step

/-- The saved position is right for the first replica and later for the second one. -/
theorem discarded_rightful_saved :
    (replicas "a")[0]? = some (((replicaHistory savedMoves).get rfl).store.cell 0).byte ∧
      (replicas "b")[0]? = some (((replicaHistory replacedMoves).get rfl).store.cell 0).byte := by
  have run : Run (multiThread DownloadState .through).session
      (fun session move => Versioned replicas session move ∧ Spared replicas session move) ⟨⟨none, none⟩, none⟩
      savedMoves ((replicaHistory savedMoves).get rfl) :=
    run_of_replay (by decide +kernel) (Option.some_get _).symm
  have longer : Run (multiThread DownloadState .through).session
      (fun session move => Versioned replicas session move ∧ Spared replicas session move) ⟨⟨none, none⟩, none⟩
      replacedMoves ((replicaHistory replacedMoves).get rfl) :=
    run_of_replay (by decide +kernel) (Option.some_get _).symm
  constructor
  · exact discarded_rightful rfl (run.mono fun _ _ admitted => ⟨admitted.1, harmless_of_spared admitted.2⟩)
      rfl rfl ⟨⟨0, 1, 1⟩, by decide, by decide, by decide⟩
  · exact discarded_rightful rfl (longer.mono fun _ _ admitted => ⟨admitted.1, harmless_of_spared admitted.2⟩)
      rfl rfl ⟨⟨0, 1, 1⟩, by decide, by decide, by decide⟩

/-- A discarded state stays on disk while the next version overwrites the bytes that it names. -/
theorem discarded_not_rightful :
    ¬ ∀ moves last, Run (multiThread DownloadState .through).session (Versioned replicas) ⟨⟨none, none⟩, none⟩
        moves last →
      ∀ state tag, load last.store.dlstate = .ok state → state.etag = some tag →
        ∀ position, Named state.workers position →
          (replicas tag)[position]? = some (last.store.cell position).byte := by
  intro rightful
  have run : Run (multiThread DownloadState .through).session (Versioned replicas) ⟨⟨none, none⟩, none⟩
      clobberMoves ((replicaHistory clobberMoves).get rfl) :=
    run_of_replay (by decide +kernel) (Option.some_get _).symm
  have same := rightful _ _ run _ "a" rfl rfl 0 ⟨⟨0, 1, 1⟩, by decide, by decide, by decide⟩
  exact absurd same (by decide)

end Multi

end FastDownloader
