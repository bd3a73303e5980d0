/-
This file proves when a call on another resource may succeed with the saved progress of an earlier one.
-/

import FastDownloader.Proof.MultiThread.Preallocation
import FastDownloader.Proof.MultiThread.Version

namespace FastDownloader

open Foundation

/-- The probe reports the length of this content and no validator. -/
structure Bare (content : List UInt8) (job : Job) : Prop where
  size : job.info.size = some content.length
  etag : job.info.etag = none
  lastModified : job.info.lastModified = none

theorem Bare.fileSize {content : List UInt8} {job : Job} (bare : Bare content job) : job.fileSize = content.length := by
  simp [Job.fileSize, bare.size]

namespace Multi

variable {Text : Type} [SerdeJson Text] {io : FileIo} {content : List UInt8} {job : Job} {disk after : Disk Text}
  {multi next : Multi} {act : Act}

/-- The bytes that a state of this length names are those of the content. -/
def Backs (content : List UInt8) (disk : Disk Text) : Prop :=
  ∀ state, load disk.dlstate = .ok state → state.fileSize = content.length → ∀ position,
    Named state.workers position → content[position]? = some (disk.cell position).byte

/-- The server sends bytes of its content, and no range is beyond its end. -/
def Delivers (content : List UInt8) (state : Disk Text × Multi) (act : Act) : Prop :=
  state.2.Answered (ByteOf content) act ∧ ∀ response ∈ act.answer, response.status ≠ 416

/-- Without validators the length alone decides about a resume. -/
theorem resumable_iff_fileSize (bare : Bare content job) {state : DownloadState}
    (loaded : load disk.dlstate = .ok state) :
    resumable job.info job.fileSize state = true ↔ state.fileSize = content.length := by
  obtain ⟨_, _, _, valid⟩ := (load_ok_iff _ _).mp loaded
  have nonempty := ((validate_ok_iff state).mp valid).2.1
  have matched : state.matchesResource none none = true := by
    cases state.lastModified <;> simp [DownloadState.matchesResource, matchesLastModified, *]
  rw [resumable_iff, bare.etag, bare.lastModified, bare.fileSize]
  exact ⟨fun accepted => accepted.1, fun same => ⟨same, nonempty, matched⟩⟩

/-- One call of a bare resource keeps the state on disk true to its content. -/
theorem backs_of_run (bare : Bare content job) (backs : Backs content disk) {acts : List Act}
    {last : Disk Text × Multi}
    (run : Run (Multi.step .through job) (Delivers content) (disk, Multi.start job) acts last) :
    Backs content last.1 := by
  have held := run.invariant
    (fun now => Backs content now.1 ∧
      (Unbegun job now.2 ∨ Tracked (rightBytes (ByteOf content)) job now.1 now.2 ∧ now.2.Level)) ?_
    ⟨backs, Or.inl (start_unbegun job)⟩
  · exact held.1
  · rintro ⟨now, multi⟩ act next ⟨backs, unbegun | ⟨tracked, level⟩⟩ delivered taken
    · rcases unbegun.step_cases taken with ⟨same, still⟩ | ⟨readable, ranges, -, chosen, rfl⟩
      · exact ⟨same ▸ backs, Or.inl still⟩
      · refine ⟨backs, Or.inr ⟨begin_right unbegun (fun state loaded accepted => ?_) chosen, begin_level _ _⟩⟩
        exact backs state loaded ((resumable_iff_fileSize bare loaded).mp accepted)
    · have change := tracked.controlled.step_change delivered.1 taken
      refine ⟨fun state loaded length position named => ?_,
        Or.inr ⟨tracked.change change (Or.inl (rightBytes_tears _)), level.change delivered.2 change⟩⟩
      exact tracked.state_right level bare.fileSize change loaded
        (fun before => backs state before length) named

/-- A call without a write that is lost or under way leaves a state that is true to its content. -/
theorem backs_of_landed (bare : Bare content job) (backs : Backs content disk) {acts : List Act}
    {last : Disk Text × Multi}
    (run : Run (Multi.step io job) (fun state act => Delivers content state act ∧ state.2.Landing act)
      (disk, Multi.start job) acts last) (landed : last.2.pending = []) : Backs content last.1 := by
  have delivers : ∀ (before shown : Disk Text × Multi) act, Resembles before shown → Delivers content before act →
      Delivers content shown act := fun _ _ _ resembles delivered =>
    ⟨(resembles.answered _ _).mpr delivered.1, delivered.2⟩
  obtain ⟨more, shown, led, resembles⟩ := run_resembles (start_shadows rfl job) run delivers
  intro state loaded length position named
  rw [← Disk.byte_seen (resembles.settled (Or.inl landed))]
  exact backs_of_run bare backs led state (resembles.dlstate.symm ▸ loaded) length position named

/-- When no write is lost or still under way at the interruption, the second call succeeds only with its own content
exactly when each offset that the first call has saved already holds the byte of this content. When the first server
sends its own bytes, these are the offsets where both contents have the same byte. -/
theorem foreign_progress_iff {own other : List UInt8} {ownJob otherJob : Job} (equal : own.length = other.length)
    (first : Bare own ownJob) (second : Bare other otherJob) {acts : List Act} {middle : Disk Text × Multi}
    (interrupted : Run (Multi.step io ownJob) (fun state act => state.2.Landing act) (disk, Multi.start ownJob) acts
      middle) (landed : middle.2.pending = []) :
    ((∀ more last, Run (Multi.step io otherJob) (Serving other) (middle.1, Multi.start otherJob) more last →
        last.2.outcome = some (.ok ()) → last.1.contents = some other) ↔ Backs other middle.1) ∧
    (Backs own disk → Admitted (Multi.step io ownJob) (Delivers own) (disk, Multi.start ownJob) acts →
      ((∀ more last, Run (Multi.step io otherJob) (Serving other) (middle.1, Multi.start otherJob) more last →
          last.2.outcome = some (.ok ()) → last.1.contents = some other) ↔
        ∀ state, load middle.1.dlstate = .ok state → state.fileSize = other.length → ∀ position,
          Named state.workers position → own[position]? = other[position]?)) := by
  have decides : (∀ more last, Run (Multi.step io otherJob) (Serving other)
      (middle.1, Multi.start otherJob) more last → last.2.outcome = some (.ok ()) →
        last.1.contents = some other) ↔ Backs other middle.1 := by
    rw [successes_right_iff second.size]
    refine forall_congr' fun state => forall_congr' fun loaded => ?_
    rw [resumable_iff_fileSize second loaded]
  refine ⟨decides, fun backs admitted => decides.trans ?_⟩
  have saved := backs_of_landed first backs (interrupted.both admitted) landed
  refine forall_congr' fun state => forall_congr' fun loaded => forall_congr' fun length =>
    forall_congr' fun position => forall_congr' fun named => ?_
  rw [saved state loaded (length.trans equal.symm) position named]
  exact eq_comm

instance (content : List UInt8) (state : Disk Text × Multi) (act : Act) : Decidable (Delivers content state act) :=
  inferInstanceAs (Decidable (_ ∧ ∀ response ∈ act.answer, response.status ≠ 416))

/-- A resource of one byte at this address, without validators. -/
def bareByte (url : String) : Job := ⟨⟨url, some 1, fits_one, true, none, none, none⟩, 2, {}⟩

theorem bareByte_bare (url : String) (byte : UInt8) : Bare [byte] (bareByte url) := ⟨rfl, rfl, rfl⟩

def bareRun (disk : Disk DownloadState) (url : String) (acts : List Act) : Option (Disk DownloadState × Multi) :=
  replay (Multi.step .through (bareByte url)) (disk, Multi.start (bareByte url)) (.main (.load true) :: acts)

/-- The second server sends the byte of its own content. -/
def otherActs : List Act := oneByteActs.set 4 (.worker 0 (.reply (some ⟨206, none, none, [9]⟩)))

/-- The first call has written its byte, but it is killed before its checkpoint. -/
theorem foreign_progress_iff_unsaved :
    ((bareRun ((bareRun ⟨none, none⟩ "a" (oneByteActs.take 9)).get rfl).1 "b" otherActs).get rfl).1.contents =
      some [9] := by
  have killed : Run (Multi.step .through (bareByte "a")) (fun state act => state.2.Landing act)
      (⟨none, none⟩, Multi.start (bareByte "a")) (.main (.load true) :: oneByteActs.take 9)
      ((bareRun ⟨none, none⟩ "a" (oneByteActs.take 9)).get rfl) :=
    run_of_replay (by decide +kernel) (Option.some_get _).symm
  have run : Run (Multi.step .through (bareByte "b")) (Serving [9])
      (((bareRun ⟨none, none⟩ "a" (oneByteActs.take 9)).get rfl).1, Multi.start (bareByte "b"))
      (.main (.load true) :: otherActs)
      ((bareRun ((bareRun ⟨none, none⟩ "a" (oneByteActs.take 9)).get rfl).1 "b" otherActs).get rfl) :=
    run_of_replay (by decide +kernel) (Option.some_get _).symm
  have decides := (foreign_progress_iff (by rfl) (bareByte_bare "a" 7) (bareByte_bare "b" 9) killed rfl).2
    (fun _ loaded => nomatch loaded) (by decide +kernel)
  exact decides.mpr (fun _ loaded => nomatch loaded) _ _ run rfl

/-- The first call is killed after its checkpoint. The state records the other address, but the second call takes it as
its own and returns without a request. -/
theorem foreign_progress_not_own :
    (bareByte "a").info.finalUrl ≠ (bareByte "b").info.finalUrl ∧
    ¬ ∀ acts middle more last,
      Run (Multi.step .through (bareByte "a")) (Delivers [7])
        ((⟨none, none⟩ : Disk DownloadState), Multi.start (bareByte "a")) acts middle →
      Run (Multi.step .through (bareByte "b")) (Serving [9]) (middle.1, Multi.start (bareByte "b")) more last →
      last.2.outcome = some (.ok ()) → last.1.contents = some [9] := by
  refine ⟨by decide, fun own => ?_⟩
  have killed : Run (Multi.step .through (bareByte "a")) (Delivers [7])
      (⟨none, none⟩, Multi.start (bareByte "a")) (.main (.load true) :: oneByteActs.take 18)
      ((bareRun ⟨none, none⟩ "a" (oneByteActs.take 18)).get rfl) :=
    run_of_replay (by decide +kernel) (Option.some_get _).symm
  have run : Run (Multi.step .through (bareByte "b")) (Serving [9])
      (((bareRun ⟨none, none⟩ "a" (oneByteActs.take 18)).get rfl).1, Multi.start (bareByte "b")) idleActs
      ((replay (Multi.step .through (bareByte "b"))
        (((bareRun ⟨none, none⟩ "a" (oneByteActs.take 18)).get rfl).1, Multi.start (bareByte "b"))
        idleActs).get rfl) :=
    run_of_replay (by decide +kernel) (Option.some_get _).symm
  exact absurd (own _ _ _ _ killed run rfl) (by decide +kernel)

end Multi

end FastDownloader
