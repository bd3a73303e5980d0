/-
This file proves that a call which meets no fault comes to its end, and says what it returns and leaves behind.
-/

import FastDownloader.Proof.Download.Step
import FastDownloader.Proof.MultiThread.Faultless
import FastDownloader.Proof.SingleThread.Faultless

namespace FastDownloader

open Foundation

/-- Both paths work on this job. -/
def DownloadCall.job (call : DownloadCall) (info : FileInfo) : Job := ⟨info, call.requestedThreads, call.cfg⟩

/-- The bytes that a call without a fault can leave where it finds the held ones. -/
def DownloadCall.Brings (call : DownloadCall) (info : FileInfo) (content : List UInt8) (policy : Policy)
    (held target : List UInt8) : Prop :=
  if call.canMulti info then target = content else Single.Made content policy (call.job info) held target

namespace Download

/-- Nothing fails and nothing is cancelled. The probe gives this answer, and the server follows its policy. -/
def Faultless (content : List UInt8) (policy : Policy) (given : Except Error FileInfo) (download : Download) :
    DownloadEvent → Prop
  | .parsed ok | .prepared ok | .measured ok | .hashed ok | .removed ok | .deleted ok => ok = true
  | .probed answer => answer = given
  | .multi act => ∀ process ∈ download.multi?, process.2.Faultless content act
  | .single event => ∀ process ∈ download.single?, process.2.Faultless content policy event
  | .join => True
  | .cancel | .interrupted => False

def Idle (download : Download) : DownloadEvent → Prop
  | .multi act => ∃ process ∈ download.multi?, process.2.Idle act
  | .single event => ∃ process ∈ download.single?, process.2.Idle event
  | _ => False

/-- The file had the expected size, and its checksum was wrong. -/
def Refused (hasher : Hasher) (call : DownloadCall) (info : FileInfo) (content : List UInt8) (policy : Policy)
    (held : List UInt8) (error : Error) : Prop :=
  ∃ target expected, call.Brings info content policy held target ∧ (∀ total ∈ info.size, total = target.length) ∧
    call.expectedChecksum info = some expected ∧ hasher.verifyFile (some target) expected = .error error

/-- What a call without a fault returns, and the file that it leaves. -/
inductive Ended {Text : Type} (hasher : Hasher) (call : DownloadCall) (info : FileInfo) (content : List UInt8)
    (policy : Policy) (held : List UInt8) (disk : Disk Text) : Except Error Nat → Prop
  | verified (target : List UInt8) (brings : call.Brings info content policy held target)
      (present : disk.contents = some target) (fits : ∀ total ∈ info.size, total = target.length)
      (accepted : ∀ expected ∈ call.expectedChecksum info, hasher.verifyFile (some target) expected = .ok ()) :
      Ended hasher call info content policy held disk (.ok target.length)
  | mismatched (target : List UInt8) (total : Nat) (brings : call.Brings info content policy held target)
      (present : disk.contents = some target) (known : info.size = some total) (differs : total ≠ target.length) :
      Ended hasher call info content policy held disk (.error (.sizeMismatch total target.length))
  | rejected (error : Error) (refused : Refused hasher call info content policy held error)
      (removed : disk.data = none) : Ended hasher call info content policy held disk (.error error)

/-- These facts about the settings, the probe and the file make a call without a fault go through. -/
structure Ready {Text : Type} (call : DownloadCall) (info : FileInfo) (content : List UInt8) (before : Disk Text) :
    Prop where
  threads : 1 ≤ call.cfg.maxThreads
  prepared : Single.Prepared content (call.job info) (before.contents.getD [])
  unsaved : call.canMulti info = true → before.dlstate = none

/-- How far a call without a fault has come. -/
def Course {Text : Type} (io : FileIo) (hasher : Hasher) (call : DownloadCall) (info : FileInfo)
    (content : List UInt8) (policy : Policy) (before disk : Disk Text) (download : Download) : Prop :=
  download.cancelled = false ∧
    match download.pc with
    | .parsing | .preparing | .probing => disk = before
    | .multi job multi => job = call.job info ∧ call.canMulti info = true ∧
        ((multi = Multi.start job ∧ disk.dlstate = none) ∨ multi.Steady content io job disk)
    | .single job single => job = call.job info ∧ call.canMulti info = false ∧ single.cancelled = false ∧
        single.Smooth content policy io job (before.contents.getD []) disk
    | .measuring found => found = info ∧
        ∃ target, call.Brings info content policy (before.contents.getD []) target ∧ disk.contents = some target
    | .verifying size expected => call.expectedChecksum info = some expected ∧
        ∃ target, call.Brings info content policy (before.contents.getD []) target ∧ disk.contents = some target ∧
          size = target.length ∧ ∀ total ∈ info.size, total = target.length
    | .removing error => Refused hasher call info content policy (before.contents.getD []) error
    | .deleting error => disk.data = none ∧ Refused hasher call info content policy (before.contents.getD []) error
    | .returned result => Ended hasher call info content policy (before.contents.getD []) disk result
    | .panicked => False

/-- A multi-thread call begins with a fresh split. -/
def opening (job : Job) : Multi :=
  (Multi.start job).begin ((splitWorkers job.fileSize job.threadCount job.cfg.minChunkSize).getD [])

/-- The rank counts the steps that are left outside of the two paths on top of their own ranks. -/
def rank (call : DownloadCall) (info : FileInfo) (content : List UInt8) (download : Download) : Nat :=
  match download.pc with
  | .parsing => (opening (call.job info)).rank + 8 * content.length + 50
  | .preparing => (opening (call.job info)).rank + 8 * content.length + 49
  | .probing => (opening (call.job info)).rank + 8 * content.length + 48
  | .multi job multi =>
      match multi.phase with
      | .loading => (opening job).rank + 6
      | _ => multi.rank + 5
  | .single _ single => single.rank content + 5
  | .measuring _ => 4
  | .verifying _ _ => 3
  | .removing _ => 2
  | .deleting _ => 1
  | _ => 0

variable {Text : Type} {io : FileIo} {hasher : Hasher} {call : DownloadCall} {info : FileInfo}
  {content : List UInt8} {policy : Policy} {before disk : Disk Text} {download : Download} {event : DownloadEvent}
  {next : Disk Text × Download}

/-- What one step without a fault does to the call. -/
structure Takes (io : FileIo) (hasher : Hasher) (call : DownloadCall) (info : FileInfo) (content : List UInt8)
    (policy : Policy) (before : Disk Text) (download : Download) (event : DownloadEvent)
    (next : Disk Text × Download) : Prop where
  course : Course io hasher call info content policy before next.1 next.2
  falls : next.2.rank call info content < download.rank call info content ∨
    (download.Idle event ∧ next.2.rank call info content ≤ download.rank call info content)

/-- The multi-thread path knows the length, and it is not zero. -/
theorem Ready.size (ready : Ready call info content before) (parallel : call.canMulti info = true) :
    (call.job info).fileSize = content.length ∧ 0 < (call.job info).fileSize ∧
      info.size = some (call.job info).fileSize := by
  obtain ⟨total, known, positive⟩ := DownloadCall.size_of_canMulti parallel
  have fileSize : (call.job info).fileSize = total := by simp [Job.fileSize, DownloadCall.job, known]
  rw [fileSize]
  exact ⟨ready.prepared.fits total known, positive, known⟩

/-- The probe leads to one of the two paths. -/
theorem probed_takes (ready : Ready call info content before) (calm : download.cancelled = false)
    (at_pc : download.pc = .probing) :
    Takes io hasher call info content policy before download event (before, download.onProbed call info) := by
  unfold onProbed
  have valid : ¬ call.cfg.maxThreads < 1 := Nat.not_lt.mpr ready.threads
  rw [if_neg valid]
  dsimp only
  split_ifs with parallel
  · refine ⟨⟨calm, rfl, parallel, Or.inl ⟨?_, ready.unsaved parallel⟩⟩, Or.inl ?_⟩
    · rw [calm]
      rfl
    · simp only [rank, at_pc, Multi.start]
      change (opening (call.job info)).rank + 6 < _
      omega
  · refine ⟨⟨calm, rfl, Bool.eq_false_iff.mpr parallel, calm, .beginning rfl rfl rfl⟩, Or.inl ?_⟩
    have fresh : (Single.start download.cancelled).rank content = 8 * content.length + 40 := Nat.zero_add _
    simp only [rank, at_pc, fresh]
    omega

/-- A step of the single-thread path. -/
theorem single_takes {job : Job} {single : Single} {act : SingleEvent} (conforming : policy.Conforming)
    (ready : Ready call info content before)
    (calm : download.cancelled = false) (at_pc : download.pc = .single job single) (same : job = call.job info)
    (alone : call.canMulti info = false) (still : single.cancelled = false)
    (smooth : single.Smooth content policy io job (before.contents.getD []) disk)
    (faultless : single.Faultless content policy act) {after : Disk Text × Single}
    (taken : Single.step io job (disk, single) act = some after) :
    Takes io hasher call info content policy before download (.single act)
      (after.1, { download with pc := .single job after.2 }) := by
  subst same
  obtain ⟨further, quiet, falls⟩ := smooth.step still conforming ready.prepared faultless taken
  refine ⟨⟨calm, rfl, alone, quiet, further⟩, ?_⟩
  rcases falls with lower | ⟨empty, level⟩
  · exact Or.inl (by simpa [rank, at_pc] using lower)
  · exact Or.inr ⟨⟨(call.job info, single), by simp [single?, at_pc], empty⟩, by simpa [rank, at_pc] using level⟩

theorem rank_multi {job : Job} {multi : Multi} (at_pc : download.pc = .multi job multi)
    (begun : multi.phase ≠ .loading) : download.rank call info content = multi.rank + 5 := by
  simp only [rank, at_pc]

/-- A call of known positive size splits the file where there is no saved state. -/
theorem start_takes [SerdeJson Text] {job : Job} {act : Act} (positive : 0 < job.fileSize)
    (known : job.info.size = some job.fileSize)
    (unsaved : disk.dlstate = none) (faultless : (Multi.start job).Faultless content act)
    {after : Disk Text × Multi} (taken : Multi.step io job (disk, Multi.start job) act = some after) :
    after.2 = opening job ∧ after.2.Steady content io job after.1 := by
  cases act with
  | cancel | lose | landOrphan | loseOrphan => cases faultless
  | worker | saver | land => simp [Multi.step, Multi.workerStep, Multi.saverStep, Multi.landStep, Multi.start] at taken
  | main event =>
      obtain ⟨same, readable, -, outcome⟩ := Multi.loadStep_cases rfl taken
      rcases outcome with ⟨unknown, -⟩ | ⟨empty, -⟩ | ⟨ranges, chosen, begun⟩
      · cases known.symm.trans unknown
      · omega
      · have split : splitWorkers job.fileSize job.threadCount job.cfg.minChunkSize = some ranges := by
          rcases Multi.chooseRanges_cases chosen with ⟨state, loaded, -⟩ | ⟨-, split⟩
          · rw [unsaved, ite_self] at loaded
            cases loaded
          · exact split
        obtain ⟨cover, fresh⟩ := splitWorkers_cover split
        rw [begun]
        refine ⟨?_, Multi.begin_steady cover (splitWorkers_ne_nil split) fresh rfl rfl⟩
        unfold opening
        rw [split, Option.getD_some]

/-- A step of the multi-thread path. -/
theorem multi_takes [SerdeJson Text] {job : Job} {multi : Multi} {act : Act} (ready : Ready call info content before)
    (calm : download.cancelled = false) (at_pc : download.pc = .multi job multi) (same : job = call.job info)
    (parallel : call.canMulti info = true)
    (state : (multi = Multi.start job ∧ disk.dlstate = none) ∨ multi.Steady content io job disk)
    (faultless : multi.Faultless content act) {after : Disk Text × Multi}
    (taken : Multi.step io job (disk, multi) act = some after) :
    Takes io hasher call info content policy before download (.multi act)
      (after.1, { download with pc := .multi job after.2 }) := by
  subst same
  obtain ⟨size, positive, known⟩ := ready.size parallel
  rcases state with ⟨rfl, unsaved⟩ | steady
  · obtain ⟨begun, steady⟩ := start_takes positive known unsaved faultless taken
    refine ⟨⟨calm, rfl, parallel, Or.inr steady⟩, Or.inl ?_⟩
    rw [rank_multi rfl steady.controlled.begun, begun]
    simp only [rank, at_pc, Multi.start]
    omega
  · obtain ⟨further, falls⟩ := steady.step size faultless taken
    refine ⟨⟨calm, rfl, parallel, Or.inr further⟩, ?_⟩
    rw [rank_multi rfl further.controlled.begun, rank_multi at_pc steady.controlled.begun]
    rcases falls with lower | ⟨idle, level⟩
    · exact Or.inl (by omega)
    · exact Or.inr ⟨⟨(call.job info, multi), by simp [multi?, at_pc], idle⟩, by omega⟩

/-- The steady multi-thread path has brought the whole content when it is joined. -/
theorem multi_joined_takes {multi : Multi} {result : Except Error Unit} (ready : Ready call info content before)
    (calm : download.cancelled = false) (at_pc : download.pc = .multi (call.job info) multi)
    (parallel : call.canMulti info = true) (steady : multi.Steady content io (call.job info) disk)
    (returned : multi.outcome = some result) :
    Takes io hasher call info content policy before download event (disk, download.onJoin info result) := by
  have ended := (Multi.outcome_iff _ _).mp returned
  obtain rfl : result = .ok () := steady.fine ended
  have whole := steady.contents (ready.size parallel).1 ended
  refine ⟨⟨calm, rfl, content, ?_, whole⟩, Or.inl ?_⟩
  · unfold DownloadCall.Brings
    rw [if_pos parallel]
  · rw [rank_multi at_pc steady.controlled.begun]
    simp only [rank, onJoin]
    omega

/-- The smooth single-thread path has made its target when it is joined. -/
theorem single_joined_takes {single : Single} {result : Except Error Unit} (calm : download.cancelled = false)
    (at_pc : download.pc = .single (call.job info) single) (alone : call.canMulti info = false)
    (smooth : single.Smooth content policy io (call.job info) (before.contents.getD []) disk)
    (returned : single.outcome = some result) :
    Takes io hasher call info content policy before download event (disk, download.onJoin info result) := by
  obtain ⟨rfl, target, made, present⟩ := smooth.ended returned
  refine ⟨⟨calm, rfl, target, ?_, present⟩, Or.inl ?_⟩
  · unfold DownloadCall.Brings
    rwa [if_neg (by simp [alone])]
  · simp only [rank, at_pc, onJoin]
    omega

/-- The measured file is accepted, is to be hashed, or has the wrong size. -/
theorem measured_takes {target : List UInt8} (calm : download.cancelled = false) (at_pc : download.pc = .measuring info)
    (brings : call.Brings info content policy (before.contents.getD []) target)
    (present : disk.contents = some target) :
    Takes io hasher call info content policy before download event
      (disk, download.onMeasured call info disk.length) := by
  have length : disk.length = target.length := Disk.length_of_contents present
  unfold onMeasured
  rw [length]
  split
  · rename_i total wrong
    obtain ⟨known, differs⟩ := Option.filter_eq_some_iff.mp wrong
    refine ⟨⟨calm, .mismatched target total brings present known (by simpa using differs)⟩, Or.inl ?_⟩
    simp only [rank, at_pc]
    omega
  · rename_i right
    have fits : ∀ total ∈ info.size, total = target.length := by
      intro total known
      by_contra differs
      rw [Option.mem_def.mp known, Option.filter_some, if_pos (by simpa using differs)] at right
      cases right
    split
    · rename_i expected inForce
      refine ⟨⟨calm, inForce, target, brings, present, rfl, fits⟩, Or.inl ?_⟩
      simp only [rank, at_pc]
      omega
    · rename_i free
      refine ⟨⟨calm, .verified target brings present fits (by simp [free])⟩, Or.inl ?_⟩
      simp only [rank, at_pc]
      omega

variable [SerdeJson Text]

/-- Each step without a fault keeps the call on its course and lowers the rank, except for the idle ones. -/
theorem Course.step (conforming : policy.Conforming) (ready : Ready call info content before)
    (course : Course io hasher call info content policy before disk download)
    (faultless : download.Faultless content policy (.ok info) event)
    (taken : Download.step io hasher call (disk, download) event = some next) :
    Takes io hasher call info content policy before download event next := by
  obtain ⟨calm, state⟩ := course
  unfold Download.step at taken
  dsimp only at taken
  cases at_pc : download.pc with
  | parsing =>
      simp only [at_pc] at taken state
      cases event with
      | parsed ok =>
          obtain rfl : ok = true := faultless
          cases taken
          exact ⟨⟨calm, state⟩, Or.inl (by simp only [rank, at_pc]; omega)⟩
      | cancel => cases faultless
      | _ => cases taken
  | preparing =>
      simp only [at_pc] at taken state
      cases event with
      | prepared ok =>
          obtain rfl : ok = true := faultless
          cases taken
          exact ⟨⟨calm, state⟩, Or.inl (by simp only [rank, at_pc]; omega)⟩
      | cancel => cases faultless
      | _ => cases taken
  | probing =>
      simp only [at_pc] at taken state
      cases event with
      | probed answer =>
          obtain rfl : answer = .ok info := faultless
          subst state
          cases taken
          exact probed_takes ready calm at_pc
      | cancel | interrupted => cases faultless
      | _ => cases taken
  | multi job multi =>
      simp only [at_pc] at taken state
      obtain ⟨same, parallel, state⟩ := state
      cases event with
      | multi act =>
          obtain ⟨after, stepped, rfl⟩ := Option.map_eq_some_iff.mp taken
          exact multi_takes ready calm at_pc same parallel state (faultless (job, multi) (by simp [multi?, at_pc])) stepped
      | join =>
          subst same
          obtain ⟨result, returned, rfl⟩ := Option.map_eq_some_iff.mp taken
          rcases state with ⟨rfl, -⟩ | steady
          · cases returned
          · exact multi_joined_takes ready calm at_pc parallel steady returned
      | _ => cases taken
  | single job single =>
      simp only [at_pc] at taken state
      obtain ⟨same, alone, still, smooth⟩ := state
      cases event with
      | single act =>
          obtain ⟨after, stepped, rfl⟩ := Option.map_eq_some_iff.mp taken
          exact single_takes conforming ready calm at_pc same alone still smooth
            (faultless (job, single) (by simp [single?, at_pc])) stepped
      | join =>
          subst same
          obtain ⟨result, returned, rfl⟩ := Option.map_eq_some_iff.mp taken
          exact single_joined_takes calm at_pc alone smooth returned
      | _ => cases taken
  | measuring found =>
      simp only [at_pc] at taken state
      cases event with
      | measured readable =>
          obtain rfl : readable = true := faultless
          obtain ⟨rfl, target, brings, present⟩ := state
          have there : disk.data.isSome = true := by
            rw [← Option.isSome_map, show disk.data.map _ = _ from present]
            rfl
          rw [there] at taken
          cases taken
          exact measured_takes calm at_pc brings present
      | cancel => cases faultless
      | _ => cases taken
  | verifying size expected =>
      simp only [at_pc] at taken state
      cases event with
      | hashed readable =>
          obtain rfl : readable = true := faultless
          obtain ⟨inForce, target, brings, present, rfl, fits⟩ := state
          dsimp only at taken
          rw [if_pos rfl, present] at taken
          split at taken <;> rename_i checked <;> cases taken
          · refine ⟨⟨calm, .verified target brings present fits fun other same => ?_⟩, Or.inl ?_⟩
            · obtain rfl := Option.some.inj (inForce.symm.trans same)
              exact checked
            · simp only [rank, at_pc]
              omega
          · exact ⟨⟨calm, target, expected, brings, fits, inForce, checked⟩,
              Or.inl (by simp only [rank, at_pc]; omega)⟩
      | cancel => cases faultless
      | _ => cases taken
  | removing error =>
      simp only [at_pc] at taken state
      cases event with
      | removed ok =>
          obtain rfl : ok = true := faultless
          cases taken
          exact ⟨⟨calm, rfl, state⟩, Or.inl (by simp only [rank, at_pc]; omega)⟩
      | cancel => cases faultless
      | _ => cases taken
  | deleting error =>
      simp only [at_pc] at taken state
      cases event with
      | deleted ok =>
          obtain rfl : ok = true := faultless
          obtain ⟨gone, refused⟩ := state
          cases taken
          exact ⟨⟨calm, .rejected error refused gone⟩, Or.inl (by simp only [rank, at_pc]; omega)⟩
      | cancel => cases faultless
      | _ => cases taken
  | returned | panicked =>
      simp only [at_pc] at taken
      cases event with
      | cancel => cases faultless
      | _ => cases taken

/-- A call on its course that has not returned can go on. -/
theorem Course.moves (conforming : policy.Conforming)
    (course : Course io hasher call info content policy before disk download) (pending : download.outcome = none) :
    ∃ event, download.Faultless content policy (.ok info) event ∧ ¬ download.Idle event ∧
      (Download.step io hasher call (disk, download) event).isSome = true := by
  obtain ⟨-, state⟩ := course
  cases at_pc : download.pc with
  | parsing => exact ⟨.parsed true, rfl, by rintro ⟨⟩, by simp [Download.step, at_pc]⟩
  | preparing => exact ⟨.prepared true, rfl, by rintro ⟨⟩, by simp [Download.step, at_pc]⟩
  | probing => exact ⟨.probed (.ok info), rfl, by rintro ⟨⟩, by simp [Download.step, at_pc]⟩
  | multi job multi =>
      simp only [at_pc] at state
      obtain ⟨rfl, parallel, state⟩ := state
      have mine : download.multi? = some (call.job info, multi) := by simp [multi?, at_pc]
      have proceed : (∃ act, multi.Faultless content act ∧ ¬ multi.Idle act ∧
            (Multi.step io (call.job info) (disk, multi) act).isSome = true) →
          ∃ event, download.Faultless content policy (.ok info) event ∧ ¬ download.Idle event ∧
            (Download.step io hasher call (disk, download) event).isSome = true := by
        rintro ⟨act, faultless, busy, enabled⟩
        refine ⟨.multi act, ?_, ?_, by simpa [Download.step, at_pc] using enabled⟩
        · simpa [Faultless, mine] using faultless
        · simpa [Idle, mine] using busy
      rcases state with ⟨rfl, -⟩ | steady
      · refine proceed ⟨.main (.load true), rfl, by rintro ⟨⟩, ?_⟩
        simp only [Multi.step, Multi.mainStep, Multi.start]
        split
        · rfl
        · split <;> rfl
      · cases returned : multi.outcome with
        | none => exact proceed (steady.moves returned)
        | some result => exact ⟨.join, trivial, by rintro ⟨⟩, by simp [Download.step, at_pc, returned]⟩
  | single job single =>
      simp only [at_pc] at state
      obtain ⟨rfl, -, -, smooth⟩ := state
      have mine : download.single? = some (call.job info, single) := by simp [single?, at_pc]
      cases returned : single.outcome with
      | none =>
          obtain ⟨event, faultless, busy, enabled⟩ := smooth.moves conforming returned
          refine ⟨.single event, ?_, ?_, by simpa [Download.step, at_pc] using enabled⟩
          · simpa [Faultless, mine] using faultless
          · simpa [Idle, mine] using busy
      | some result => exact ⟨.join, trivial, by rintro ⟨⟩, by simp [Download.step, at_pc, returned]⟩
  | measuring =>
      refine ⟨.measured true, rfl, by rintro ⟨⟩, ?_⟩
      simp only [Download.step, at_pc]
      split_ifs <;> rfl
  | verifying =>
      refine ⟨.hashed true, rfl, by rintro ⟨⟩, ?_⟩
      simp only [Download.step, at_pc]
      split <;> rfl
  | removing => exact ⟨.removed true, rfl, by rintro ⟨⟩, by simp [Download.step, at_pc]⟩
  | deleting => exact ⟨.deleted true, rfl, by rintro ⟨⟩, by simp [Download.step, at_pc]⟩
  | returned => simp [Download.outcome, at_pc] at pending
  | panicked => simp only [at_pc] at state

/-- A run takes a call without a fault to its end, whatever it has done so far. -/
theorem faultless_settles (conforming : policy.Conforming) (ready : Ready call info content before) :
    Settles (Download.step io hasher call) (fun state event => state.2.Faultless content policy (.ok info) event)
      (fun state event => state.2.Idle event) (fun state => state.2.outcome.isSome = true)
      (before, Download.start call) := by
  have ranked : Ranked (Download.step io hasher call)
      (fun state event => state.2.Faultless content policy (.ok info) event) (fun state event => state.2.Idle event)
      (fun state => state.2.outcome.isSome = true)
      (fun state => Course io hasher call info content policy before state.1 state.2)
      (fun state => state.2.rank call info content) := by
    refine ⟨fun _ _ _ course faultless taken => (course.step conforming ready faultless taken).course,
      fun _ _ _ course faultless taken => (course.step conforming ready faultless taken).falls,
      fun state course pending => course.moves conforming ?_⟩
    simpa using pending
  exact ranked.settles ⟨rfl, rfl⟩

/-- Each end of a call without a fault is one of the listed ends. -/
theorem faultless_ends (conforming : policy.Conforming) (ready : Ready call info content before)
    {events : List DownloadEvent} {last : Disk Text × Download} {result : Except Error Nat}
    (run : Run (Download.step io hasher call)
      (fun state event => state.2.Faultless content policy (.ok info) event) (before, Download.start call) events last)
    (returned : last.2.outcome = some result) :
    Ended hasher call info content policy (before.contents.getD []) last.1 result := by
  have course := run.invariant (fun state => Course io hasher call info content policy before state.1 state.2)
    (fun _ _ _ course faultless taken => (course.step conforming ready faultless taken).course) ⟨rfl, rfl⟩
  have state := course.2
  simpa only [(outcome_iff last.2 result).mp returned] using state

end Download

end FastDownloader
