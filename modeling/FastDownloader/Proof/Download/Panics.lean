/-
This file proves which behaviour of a server makes a call panic.
-/

import FastDownloader.Model.Panic
import FastDownloader.Proof.Download.Step
import FastDownloader.Proof.MultiThread.Assembly
import FastDownloader.Proof.MultiThread.Restart
import FastDownloader.Proof.SingleThread.Stream

namespace FastDownloader

open Foundation

theorem Worker.writeLen_le (worker : Worker) (pos chunkLen : Nat) : worker.writeLen pos chunkLen ≤ chunkLen := by
  unfold writeLen
  split_ifs <;> omega

/-- A sound worker asks for ranges that are not empty and stays in front of its end. -/
theorem Worker.Sound.no_panic {right : Nat → UInt8 → Prop} {worker : Worker} (sound : worker.Sound right)
    (cancelled : Bool) (event : WorkerEvent) : worker.panics cancelled event = false := by
  have aligned := sound.aligned
  unfold Worker.panics
  split
  · simp only [underflows, Bool.and_eq_false_iff, decide_eq_false_iff_not]
    omega
  · rename_i segment size at_pc
    simp only [Aligned, at_pc] at aligned
    have more := aligned.2.2.1
    have cut := worker.writeLen_le segment.pos (segment.body.take size).length
    have ahead : underflows worker.stop segment.pos = false := decide_eq_false (by omega)
    have inside : outOfRange (segment.body.take size).length
        (worker.writeLen segment.pos (segment.body.take size).length) = false := decide_eq_false (by omega)
    simp only [ahead, inside, Bool.and_false, Bool.or_false]
  · rfl

/-- A file with a byte can be split. -/
theorem splitPanics_of_pos {fileSize : Nat} (positive : 0 < fileSize) (threadCount minChunk : Nat) :
    splitPanics fileSize threadCount minChunk = false := by
  have divisor := effectiveThreads_pos fileSize threadCount minChunk
  simp only [splitPanics, Bool.or_eq_false_iff, decide_eq_false_iff_not]
  omega

namespace Multi

variable {Text : Type} [SerdeJson Text] {job : Job} {disk : Disk Text} {multi : Multi} {io : FileIo} {act : Act}

/-- Whatever the state file holds, the accepted ranges are validated and a fresh split has a byte. -/
theorem loadPanics_of_pos {fileSize : Nat} (positive : 0 < fileSize) (file : Option Text) :
    loadPanics job fileSize file = false := by
  unfold loadPanics
  split
  · rename_i state loaded
    split_ifs
    · obtain ⟨_, _, _, valid⟩ := (load_ok_iff _ _).mp loaded
      obtain ⟨_, _, cover⟩ := (validate_ok_iff state).mp valid
      rw [List.any_eq_false]
      intro range member
      have within := cover.within range member
      simp only [underflows, decide_eq_true_eq]
      omega
    · exact splitPanics_of_pos positive _ _
  · exact splitPanics_of_pos positive _ _

/-- A call of known positive size has not begun, or its workers are sound. -/
structure Guarded (job : Job) (multi : Multi) : Prop where
  sized : ∀ fileSize ∈ job.info.size, 0 < fileSize
  begun : Unbegun job multi ∨ Controlled (fun _ _ => True) job multi

theorem Guarded.step (guarded : Guarded job multi) {next : Disk Text × Multi}
    (taken : Multi.step io job (disk, multi) act = some next) : Guarded job next.2 :=
  ⟨guarded.sized, step_begun guarded.begun taken⟩

theorem Guarded.no_panic (guarded : Guarded job multi) (disk : Disk Text) (act : Act) :
    multi.panics job disk act = false := by
  unfold panics
  split
  · rw [Option.any_eq_false_iff_get]
    intro known
    exact loadPanics_of_pos (guarded.sized _ (Option.get_mem known)) _
  · rename_i index event running
    cases present : multi.workers[index]? with
    | none => rfl
    | some worker =>
        have member := List.mem_of_getElem? present
        rcases guarded.begun with unbegun | controlled
        · rw [unbegun.workers] at member
          cases member
        · exact (controlled.sound worker member).no_panic _ _
  · rfl

end Multi

/-- The server answers a request of `single_thread` by a success that is neither 200 nor 206. -/
def Single.Unusual (single : Single) : SingleEvent → Prop
  | .reply (some response) => single.requested.isSome ∧ isSuccess response.status = true ∧
      response.status ≠ 200 ∧ response.status ≠ 206
  | _ => False

theorem Single.Unusual.sent {single : Single} {event : SingleEvent} (unusual : single.Unusual event) :
    ∃ existing resume response, single.pc = .sent existing resume ∧ event = .reply (some response) := by
  cases event with
  | reply answer =>
      cases answer with
      | none => cases unusual
      | some response =>
          obtain ⟨⟨existing, resume⟩, asked⟩ := Option.isSome_iff_exists.mp unusual.1
          unfold requested at asked
          split at asked
          · rename_i at_pc
            exact ⟨_, _, response, at_pc, rfl⟩
          · cases asked
  | _ => cases unusual

/-- A write of a stream stays inside its chunk, and a stream that is not full stands before its total. -/
theorem Stream.no_panic (stream : Stream) (chunkLen : Nat) (more : stream.full = false) :
    (stream.total.any fun total => underflows total stream.pos) = false ∧
      outOfRange chunkLen (stream.writeLen chunkLen) = false := by
  unfold full at more
  unfold writeLen underflows outOfRange
  cases known : stream.total with
  | none => exact ⟨rfl, decide_eq_false (Nat.lt_irrefl _)⟩
  | some total =>
      simp only [known, Option.any_some, decide_eq_false_iff_not] at more
      refine ⟨decide_eq_false (by omega), decide_eq_false ?_⟩
      exact Nat.not_lt.mpr (Nat.min_le_right _ _)

theorem unreachableArm_iff (resume : Bool) (status : Nat) :
    unreachableArm resume status = true ↔ isSuccess status = true ∧ status ≠ 200 ∧ status ≠ 206 := by
  unfold unreachableArm
  split
  · simp
  · simp
  · simp
  · rename_i whole resumed volunteered
    refine ⟨fun success => ⟨success, whole, fun partly => ?_⟩, And.left⟩
    cases resume with
    | true => exact resumed rfl partly
    | false => exact volunteered rfl partly

/-- The unreachable arm is the only panic point of `single_thread` that can be reached. -/
theorem Single.panics_iff_unusual (single : Single) (event : SingleEvent) :
    single.panics event = true ↔ single.Unusual event := by
  unfold panics
  split
  · rename_i existing resume response at_pc
    rw [unreachableArm_iff]
    exact ⟨fun taken => ⟨by simp [requested, at_pc], taken⟩, And.right⟩
  · rename_i stream size at_pc
    refine iff_of_false ?_ id
    cases more : stream.full with
    | true => simp
    | false =>
        obtain ⟨ahead, inside⟩ := stream.no_panic (stream.body.take size).length more
        simp only [ahead, inside, Bool.or_false, Bool.and_false]
        exact Bool.false_ne_true
  · rename_i unsent _
    refine iff_of_false nofun fun unusual => ?_
    obtain ⟨existing, resume, response, at_pc, same⟩ := unusual.sent
    exact unsent existing resume response at_pc same

namespace Download

variable {Text : Type} [SerdeJson Text] {io : FileIo} {hasher : Hasher} {call : DownloadCall} {disk : Disk Text}
  {download : Download} {event : DownloadEvent}

/-- The answer of a server to the single-thread path. -/
def Unusual (download : Download) (event : DownloadEvent) : Prop :=
  ∃ job single inner, download.pc = .single job single ∧ event = .single inner ∧ single.Unusual inner

/-- The multi-thread path is only taken for a known positive size. -/
def Guarded (download : Download) : Prop := ∀ path ∈ download.multi?, Multi.Guarded path.1 path.2

theorem Guarded.step (guarded : download.Guarded) {next : Disk Text × Download}
    (taken : Download.step io hasher call (disk, download) event = some next) : next.2.Guarded := by
  refine multi_keeps ?_ (fun _ _ _ _ _ _ held stepped => held.step stepped) guarded taken
  intro info parallel _
  refine ⟨fun fileSize known => ?_, Or.inl ⟨Or.inl rfl, rfl, rfl, rfl⟩⟩
  obtain ⟨size, sized, positive⟩ := DownloadCall.size_of_canMulti parallel
  exact Option.some.inj (sized.symm.trans known) ▸ positive

/-- With a valid thread limit, an unusual success is all that can make a call panic, whatever the server sends and
whatever the data file and the state file hold. -/
theorem panics_iff (threads : 1 ≤ call.cfg.maxThreads) {events : List DownloadEvent} {last : Disk Text × Download}
    (run : Run (Download.step io hasher call) (fun _ _ => True) (disk, Download.start call) events last)
    (event : DownloadEvent) :
    last.2.panics call last.1 event = true ↔ last.2.Unusual event := by
  have guarded : last.2.Guarded := by
    refine run.invariant (fun state => state.2.Guarded) (fun _ _ _ guarded _ taken => guarded.step taken) ?_
    intro path member
    cases member
  unfold panics
  split
  · refine iff_of_false ?_ ?_
    · rw [decide_eq_true_eq]
      omega
    · rintro ⟨job, single, inner, _, same, _⟩
      cases same
  · rename_i job multi act at_pc
    refine iff_of_false ?_ ?_
    · rw [(guarded (job, multi) (by simp [multi?, at_pc])).no_panic]
      exact Bool.false_ne_true
    · rintro ⟨job, single, inner, _, same, _⟩
      cases same
  · rename_i job single inner at_pc
    rw [Single.panics_iff_unusual]
    constructor
    · exact fun unusual => ⟨job, single, inner, at_pc, rfl, unusual⟩
    · rintro ⟨_, _, _, same, given, unusual⟩
      obtain ⟨rfl, rfl⟩ := DownloadPc.single.inj (at_pc.symm.trans same)
      exact DownloadEvent.single.inj given ▸ unusual
  · rename_i noSingle
    refine iff_of_false Bool.false_ne_true ?_
    rintro ⟨job, single, inner, at_pc, rfl, _⟩
    exact noSingle _ _ _ at_pc rfl

/-- A call with one thread sends its request. -/
def requestEvents : List DownloadEvent :=
  [.parsed true, .prepared true, .probed (.ok ⟨"u", none, fits_none, false, none, none, none⟩), .single .check, .single (.stat true)]

def plainCall : DownloadCall := ⟨{ url := "u" }, {}⟩

def requestRun : Option (Disk DownloadState × Download) :=
  replay (Download.step .through anyHasher plainCall) (⟨none, none⟩, Download.start plainCall) requestEvents

/-- An answer of 500 makes no call panic. -/
theorem panics_iff_failed :
    ¬ (requestRun.get rfl).2.panics plainCall (requestRun.get rfl).1
        (.single (.reply (some ⟨500, none, none, []⟩))) = true := by
  have run : Run (Download.step .through anyHasher plainCall) (fun _ _ => True)
      (⟨none, none⟩, Download.start plainCall) requestEvents (requestRun.get rfl) :=
    run_of_replay (by decide +kernel) (Option.some_get _).symm
  rw [panics_iff (by decide) run]
  rintro ⟨_, _, _, _, given, unusual⟩
  obtain rfl := DownloadEvent.single.inj given
  exact absurd unusual.2.1 (by decide)

/-- An answer 204 to the request of `single_thread` reaches the unreachable arm. -/
theorem panics_unusual :
    ¬ ∀ (events : List DownloadEvent) (last : Disk DownloadState × Download),
      Run (Download.step .through anyHasher plainCall) (fun _ _ => True)
        (⟨none, none⟩, Download.start plainCall) events last →
      ∀ event, last.2.panics plainCall last.1 event = false := by
  intro safe
  have run : Run (Download.step .through anyHasher plainCall) (fun _ _ => True)
      (⟨none, none⟩, Download.start plainCall) requestEvents (requestRun.get rfl) :=
    run_of_replay (by decide +kernel) (Option.some_get _).symm
  exact absurd (safe _ _ run (.single (.reply (some ⟨204, none, none, []⟩)))) (by decide +kernel)

end Download

end FastDownloader
