/-
This file proves that a whole call comes to its end whatever happens to its attempts, and says what it returns.
-/

import FastDownloader.Proof.Download.Faultless
import FastDownloader.Proof.MultiThread.Retry
import FastDownloader.Proof.SingleThread.Retry

namespace FastDownloader

open Foundation

namespace Download

/-- Nobody cancels, and the steps outside of the two paths go through. On the paths everything may fail that is tried
again. The last cleanup may fail, too. -/
def Retriable (content : List UInt8) (info : FileInfo) (download : Download) : DownloadEvent → Prop
  | .parsed ok | .prepared ok | .measured ok | .hashed ok => ok = true
  | .probed answer => answer = .ok info
  | .multi act => ∀ process ∈ download.multi?, process.2.Retriable content act
  | .single event => ∀ process ∈ download.single?, process.2.Retriable content event
  | .join | .removed _ | .deleted _ => True
  | .cancel | .interrupted => False

/-- The steps of the multi-thread path. -/
def acts (past : List DownloadEvent) : List Act := past.filterMap fun
  | .multi act => some act
  | _ => none

/-- The steps of the single-thread path. -/
def events (past : List DownloadEvent) : List SingleEvent := past.filterMap fun
  | .single event => some event
  | _ => none

/-- Some worker, or the one thread, has met as many failures as it has attempts. -/
def Spent (call : DownloadCall) (info : FileInfo) (past : List DownloadEvent) : Prop :=
  if call.canMulti info then ∃ index, call.cfg.budget ≤ failures index (acts past)
  else call.cfg.budget ≤ (events past).countP SingleEvent.failed

/-- The digest in force is not that of the content. -/
def Rejected (hasher : Hasher) (call : DownloadCall) (info : FileInfo) (content : List UInt8) (error : Error) : Prop :=
  ∃ expected, call.expectedChecksum info = some expected ∧ hasher.verifyFile (some content) expected = .error error

/-- The call finds nothing on its path, or only right bytes of the content. -/
structure Fit {Text : Type} [SerdeJson Text] (call : DownloadCall) (info : FileInfo) (content : List UInt8)
    (before : Disk Text) : Prop where
  threads : 1 ≤ call.cfg.maxThreads
  size : ∀ total ∈ info.size, total = content.length
  part : call.canMulti info = false → Single.Partial content before
  saved : call.canMulti info = true → ∀ state, load before.dlstate = .ok state →
    Multi.resumable info content.length state = true →
    ∀ position, Named state.workers position → content[position]? = some (before.cell position).byte

/-- A call without an attempt left says so. Otherwise only the digest decides. -/
inductive Concluded {Text : Type} (hasher : Hasher) (call : DownloadCall) (info : FileInfo) (content : List UInt8)
    (past : List DownloadEvent) (disk : Disk Text) : Except Error Nat → Prop
  | whole (spared : ¬ Spent call info past) (present : disk.contents = some content)
      (accepted : ∀ expected ∈ call.expectedChecksum info, hasher.verifyFile (some content) expected = .ok ()) :
      Concluded hasher call info content past disk (.ok content.length)
  | rejected (error : Error) (spared : ¬ Spent call info past) (refused : Rejected hasher call info content error) :
      Concluded hasher call info content past disk (.error error)
  | spent (source : Error) (spent : Spent call info past) :
      Concluded hasher call info content past disk (.error (.retryExhausted call.cfg.budget source))

/-- How far a call has come that tries again and again. -/
def Persists {Text : Type} (hasher : Hasher) (call : DownloadCall) (info : FileInfo) (content : List UInt8)
    (before : Disk Text) (past : List DownloadEvent) (disk : Disk Text) (download : Download) : Prop :=
  download.cancelled = false ∧
    match download.pc with
    | .parsing | .preparing | .probing => disk = before ∧ acts past = [] ∧ events past = []
    | .multi job multi => job = call.job info ∧ call.canMulti info = true ∧
        ((multi = Multi.start job ∧ disk = before ∧ acts past = []) ∨ Multi.Worked content job (acts past) disk multi)
    | .single job single => job = call.job info ∧ call.canMulti info = false ∧
        single.Trying content .through job disk ∧ single.met = (events past).countP SingleEvent.failed
    | .measuring found => found = info ∧ disk.contents = some content ∧ ¬ Spent call info past
    | .verifying size expected => call.expectedChecksum info = some expected ∧ disk.contents = some content ∧
        size = content.length ∧ ¬ Spent call info past
    | .removing error | .deleting error => Rejected hasher call info content error ∧ ¬ Spent call info past
    | .returned result => Concluded hasher call info content past disk result
    | .panicked => False

/-- The toil that a multi-thread call begins with when it has read this state file. -/
def loadToil {Text : Type} [SerdeJson Text] (job : Job) (disk : Disk Text) (file : Option Text) : Nat :=
  ((Multi.start job).begin ((Multi.chooseRanges job job.fileSize file).getD [])).toil job disk

/-- The state file may not be readable. -/
def startToil {Text : Type} [SerdeJson Text] (job : Job) (disk : Disk Text) : Nat :=
  max (loadToil job disk disk.dlstate) (loadToil job disk none)

/-- The steps outside of the two paths come on top of the toil of the paths. -/
def toil {Text : Type} [SerdeJson Text] (call : DownloadCall) (info : FileInfo) (content : List UInt8)
    (disk : Disk Text) (download : Download) : Nat :=
  let paths := startToil (call.job info) disk + (Single.start false).toil content call.cfg
  match download.pc with
  | .parsing => paths + 9
  | .preparing => paths + 8
  | .probing => paths + 7
  | .multi job multi =>
      match multi.phase with
      | .loading => startToil job disk + 6
      | _ => multi.toil job disk + 5
  | .single job single => single.toil content job.cfg + 5
  | .measuring _ => 4
  | .verifying _ _ => 3
  | .removing _ => 2
  | .deleting _ => 1
  | _ => 0

variable {Text : Type} {hasher : Hasher} {call : DownloadCall} {info : FileInfo} {content : List UInt8}
  {before disk : Disk Text} {past : List DownloadEvent} {download : Download} {event : DownloadEvent}
  {next : Disk Text × Download}

theorem acts_snoc (past : List DownloadEvent) (act : Act) : acts (past ++ [.multi act]) = acts past ++ [act] := by
  simp [acts]

theorem events_snoc (past : List DownloadEvent) (event : SingleEvent) :
    events (past ++ [.single event]) = events past ++ [event] := by
  simp [events]

/-- The other steps belong to no path. -/
theorem acts_skip (outside : ∀ act, event ≠ .multi act) : acts (past ++ [event]) = acts past := by
  cases event with
  | multi act => exact absurd rfl (outside act)
  | _ => simp [acts]

theorem events_skip (outside : ∀ inner, event ≠ .single inner) : events (past ++ [event]) = events past := by
  cases event with
  | single inner => exact absurd rfl (outside inner)
  | _ => simp [events]

theorem spent_skip (apart : ∀ act, event ≠ .multi act) (alone : ∀ inner, event ≠ .single inner) :
    Spent call info (past ++ [event]) ↔ Spent call info past := by
  simp only [Spent, acts_skip apart, events_skip alone]

variable [SerdeJson Text]

/-- What a step does to a call that tries again and again. -/
structure Endures (hasher : Hasher) (call : DownloadCall) (info : FileInfo) (content : List UInt8) (before : Disk Text)
    (past : List DownloadEvent) (disk : Disk Text) (download : Download) (event : DownloadEvent)
    (next : Disk Text × Download) : Prop where
  persists : Persists hasher call info content before (past ++ [event]) next.1 next.2
  falls : next.2.toil call info content next.1 < download.toil call info content disk ∨
    (download.Idle event ∧ next.2.toil call info content next.1 ≤ download.toil call info content disk)

/-- The multi-thread path knows the length. -/
theorem Fit.fileSize (fit : Fit call info content before) (parallel : call.canMulti info = true) :
    (call.job info).fileSize = content.length ∧ 0 < (call.job info).fileSize ∧
      info.size = some (call.job info).fileSize := by
  obtain ⟨total, known, positive⟩ := DownloadCall.size_of_canMulti parallel
  have fileSize : (call.job info).fileSize = total := by simp [Job.fileSize, DownloadCall.job, known]
  rw [fileSize]
  exact ⟨fit.size total known, positive, known⟩

/-- The ranges that a call begins with cover the content and name only right bytes. -/
theorem Fit.begun (fit : Fit call info content before) (parallel : call.canMulti info = true) {readable : Bool}
    {ranges : List WorkerRange}
    (chosen : Multi.chooseRanges (call.job info) (call.job info).fileSize (if readable then before.dlstate else none) =
      some ranges) :
    Multi.Enduring content (call.job info) before ((Multi.start (call.job info)).begin ranges) := by
  obtain ⟨cover, nonempty⟩ := Multi.chooseRanges_cover chosen
  obtain ⟨size, -, -⟩ := fit.fileSize parallel
  refine Multi.begin_enduring cover nonempty fun position named => ?_
  rcases Multi.chooseRanges_cases chosen with ⟨state, loaded, accepted, rfl⟩ | ⟨-, split⟩
  · cases readable with
    | true => exact fit.saved parallel state loaded (size ▸ accepted) position named
    | false => cases loaded
  · exact absurd named (not_named_of_fresh (splitWorkers_cover split).2 position)

theorem toil_multi {job : Job} {multi : Multi} (at_pc : download.pc = .multi job multi)
    (begun : multi.phase ≠ .loading) : download.toil call info content disk = multi.toil job disk + 5 := by
  simp only [toil, at_pc]

/-- The probe leads to one of the two paths. -/
theorem probed_endures (fit : Fit call info content before) (calm : download.cancelled = false)
    (at_pc : download.pc = .probing) (none_yet : acts past = []) (none_either : events past = []) :
    Endures hasher call info content before past before download (.probed (.ok info))
      (before, download.onProbed call info) := by
  have valid : ¬ call.cfg.maxThreads < 1 := Nat.not_lt.mpr fit.threads
  unfold onProbed
  rw [if_neg valid]
  dsimp only
  split_ifs with parallel
  · refine ⟨⟨calm, rfl, parallel, Or.inl ⟨?_, rfl, ?_⟩⟩, Or.inl ?_⟩
    · rw [calm]
      rfl
    · rw [acts_skip (by rintro _ ⟨⟩), none_yet]
    · simp only [toil, at_pc, Multi.start]
      change startToil (call.job info) before + 6 < _
      omega
  · refine ⟨⟨calm, rfl, Bool.eq_false_iff.mpr parallel, ?_, ?_⟩, Or.inl ?_⟩
    · rw [calm]
      exact Single.start_trying (fit.part (Bool.eq_false_iff.mpr parallel))
    · rw [events_skip (by rintro _ ⟨⟩), none_either]
      rfl
    · simp only [toil, at_pc, calm]
      omega

/-- A step of the single-thread path. -/
theorem single_endures {single : Single} {inner : SingleEvent} (fit : Fit call info content before)
    (calm : download.cancelled = false) (at_pc : download.pc = .single (call.job info) single)
    (alone : call.canMulti info = false) (trying : single.Trying content .through (call.job info) disk)
    (counted : single.met = (events past).countP SingleEvent.failed) (retriable : single.Retriable content inner)
    {after : Disk Text × Single} (taken : Single.step .through (call.job info) (disk, single) inner = some after) :
    Endures hasher call info content before past disk download (.single inner)
      (after.1, { download with pc := .single (call.job info) after.2 }) := by
  obtain ⟨further, tries⟩ := trying.step fit.size retriable taken
  refine ⟨⟨calm, rfl, alone, further, ?_⟩, ?_⟩
  · rw [tries.counted, counted, events_snoc, countP_concat]
  · rcases tries.falls with lower | ⟨empty, level⟩
    · exact Or.inl (by simpa [toil, at_pc] using lower)
    · exact Or.inr ⟨⟨(call.job info, single), by simp [single?, at_pc], empty⟩, by simpa [toil, at_pc] using level⟩

theorem toil_le_startToil {job : Job} {readable : Bool} {ranges : List WorkerRange}
    (chosen : Multi.chooseRanges job job.fileSize (if readable then disk.dlstate else none) = some ranges) :
    ((Multi.start job).begin ranges).toil job disk ≤ startToil job disk := by
  have same : loadToil job disk (if readable then disk.dlstate else none) =
      ((Multi.start job).begin ranges).toil job disk := by
    rw [loadToil, chosen, Option.getD_some]
  rw [← same]
  cases readable with
  | true => exact Nat.le_max_left _ _
  | false => exact Nat.le_max_right _ _

/-- The load of a multi-thread call chooses its ranges. -/
theorem load_endures {act : Act} (fit : Fit call info content before) (calm : download.cancelled = false)
    (at_pc : download.pc = .multi (call.job info) (Multi.start (call.job info)))
    (parallel : call.canMulti info = true) (none_yet : acts past = [])
    (retriable : (Multi.start (call.job info)).Retriable content act) {after : Disk Text × Multi}
    (taken : Multi.step .through (call.job info) (before, Multi.start (call.job info)) act = some after) :
    Endures hasher call info content before past before download (.multi act)
      (after.1, { download with pc := .multi (call.job info) after.2 }) := by
  obtain ⟨size, positive, known⟩ := fit.fileSize parallel
  cases act with
  | cancel => cases retriable
  | worker | saver | land | lose | landOrphan | loseOrphan =>
      simp [Multi.step, Multi.workerStep, Multi.saverStep, Multi.landStep, Multi.orphanStep, Multi.start] at taken
  | main event =>
      obtain ⟨untouched, readable, rfl, outcome⟩ := Multi.loadStep_cases rfl taken
      obtain ⟨file, multi⟩ := after
      obtain rfl : file = before := untouched
      rcases outcome with ⟨unknown, -⟩ | ⟨empty, -⟩ | ⟨ranges, chosen, rfl⟩
      · cases known.symm.trans unknown
      · omega
      · have worked := Multi.begin_worked (fit.begun parallel chosen)
        refine ⟨⟨calm, rfl, parallel, Or.inr ?_⟩, Or.inl ?_⟩
        · rw [acts_snoc, none_yet]
          exact worked.main _
        · rw [toil_multi rfl worked.enduring.tracked.controlled.begun]
          have within := toil_le_startToil chosen
          simp only [toil, at_pc, Multi.start]
          exact Nat.lt_succ_of_le (Nat.add_le_add_right within 5)

/-- A later step of the multi-thread path. -/
theorem multi_endures {multi : Multi} {act : Act} (fit : Fit call info content before)
    (calm : download.cancelled = false) (at_pc : download.pc = .multi (call.job info) multi)
    (parallel : call.canMulti info = true) (worked : Multi.Worked content (call.job info) (acts past) disk multi)
    (retriable : multi.Retriable content act) {after : Disk Text × Multi}
    (taken : Multi.step .through (call.job info) (disk, multi) act = some after) :
    Endures hasher call info content before past disk download (.multi act)
      (after.1, { download with pc := .multi (call.job info) after.2 }) := by
  obtain ⟨size, -, -⟩ := fit.fileSize parallel
  have further := worked.step size retriable taken
  refine ⟨⟨calm, rfl, parallel, Or.inr ?_⟩, ?_⟩
  · rw [acts_snoc]
    exact further
  · rw [toil_multi rfl further.enduring.tracked.controlled.begun,
      toil_multi at_pc worked.enduring.tracked.controlled.begun]
    rcases (worked.enduring.step size retriable taken).falls with lower | ⟨idle, level⟩
    · exact Or.inl (Nat.add_lt_add_right lower 5)
    · exact Or.inr ⟨⟨(call.job info, multi), by simp [multi?, at_pc], idle⟩, Nat.add_le_add_right level 5⟩

omit [SerdeJson Text] in
theorem spent_join : Spent call info (past ++ [.join]) ↔ Spent call info past :=
  spent_skip (by rintro _ ⟨⟩) (by rintro _ ⟨⟩)

/-- The multi-thread path hands its result over. -/
theorem multi_joined_endures {multi : Multi} {result : Except Error Unit} (fit : Fit call info content before)
    (calm : download.cancelled = false) (at_pc : download.pc = .multi (call.job info) multi)
    (parallel : call.canMulti info = true) (worked : Multi.Worked content (call.job info) (acts past) disk multi)
    (returned : multi.outcome = some result) :
    Endures hasher call info content before past disk download .join (disk, download.onJoin info result) := by
  have toil : download.toil call info content disk = multi.toil (call.job info) disk + 5 :=
    toil_multi at_pc worked.enduring.tracked.controlled.begun
  have spent : Spent call info (past ++ [.join]) ↔ ∃ index, call.cfg.budget ≤ failures index (acts past) := by
    rw [spent_join, Spent, if_pos parallel]
  obtain ⟨rfl, fewer, contents⟩ | ⟨source, index, rfl, all⟩ := worked.result (fit.fileSize parallel).1 returned
  · refine ⟨⟨calm, rfl, contents, fun some_spent => ?_⟩, Or.inl ?_⟩
    · obtain ⟨index, all⟩ := spent.mp some_spent
      exact Nat.not_le.mpr (fewer index) all
    · rw [toil]
      simp only [Download.toil, onJoin]
      omega
  · refine ⟨⟨calm, .spent source (spent.mpr ⟨index, all⟩)⟩, Or.inl ?_⟩
    rw [toil]
    simp only [Download.toil, onJoin]
    omega

/-- So does the single-thread path. -/
theorem single_joined_endures {single : Single} {result : Except Error Unit} (calm : download.cancelled = false)
    (at_pc : download.pc = .single (call.job info) single) (alone : call.canMulti info = false)
    (trying : single.Trying content .through (call.job info) disk)
    (counted : single.met = (events past).countP SingleEvent.failed) (returned : single.outcome = some result) :
    Endures hasher call info content before past disk download .join (disk, download.onJoin info result) := by
  have spent : Spent call info (past ++ [.join]) ↔ call.cfg.budget ≤ single.met := by
    rw [spent_join, Spent, if_neg (by simp [alone]), counted]
  obtain ⟨rfl, fewer, contents⟩ | ⟨source, rfl, all⟩ := trying.result returned
  · refine ⟨⟨calm, rfl, contents, fun given => Nat.not_le.mpr fewer (spent.mp given)⟩, Or.inl ?_⟩
    simp only [toil, at_pc, onJoin]
    omega
  · refine ⟨⟨calm, .spent source (spent.mpr (Nat.le_of_eq all.symm))⟩, Or.inl ?_⟩
    simp only [toil, at_pc, onJoin]
    omega

/-- A file with the whole content has the right size. -/
theorem measured_endures {ok : Bool} (fit : Fit call info content before) (calm : download.cancelled = false)
    (at_pc : download.pc = .measuring info) (present : disk.contents = some content)
    (spared : ¬ Spent call info past) :
    Endures hasher call info content before past disk download (.measured ok)
      (disk, download.onMeasured call info disk.length) := by
  have length : disk.length = content.length := Disk.length_of_contents present
  have right : info.size.filter (· ≠ content.length) = none := by
    rw [Option.filter_eq_none_iff]
    intro total known
    simpa using fit.size total known
  have later : ¬ Spent call info (past ++ [.measured ok]) := by
    rw [spent_skip (by rintro _ ⟨⟩) (by rintro _ ⟨⟩)]
    exact spared
  unfold onMeasured
  rw [length, right]
  dsimp only
  split
  · rename_i expected inForce
    refine ⟨⟨calm, inForce, present, rfl, later⟩, Or.inl ?_⟩
    simp only [toil, at_pc]
    omega
  · rename_i free
    refine ⟨⟨calm, .whole later present (by simp [free])⟩, Or.inl ?_⟩
    simp only [toil, at_pc]
    omega

/-- The hash decides between the last two ends. -/
theorem hashed_endures {size : Nat} {expected : Checksum} (calm : download.cancelled = false)
    (at_pc : download.pc = .verifying size expected) (inForce : call.expectedChecksum info = some expected)
    (present : disk.contents = some content) (length : size = content.length) (spared : ¬ Spent call info past)
    (taken : Download.step .through hasher call (disk, download) (.hashed true) = some next) :
    Endures hasher call info content before past disk download (.hashed true) next := by
  subst length
  have later : ¬ Spent call info (past ++ [.hashed true]) := by
    rw [spent_skip (by rintro _ ⟨⟩) (by rintro _ ⟨⟩)]
    exact spared
  unfold Download.step at taken
  simp only [at_pc, if_true, present] at taken
  split at taken <;> rename_i checked <;> cases taken
  · refine ⟨⟨calm, .whole later present fun other same => ?_⟩, Or.inl ?_⟩
    · obtain rfl := Option.some.inj (inForce.symm.trans same)
      exact checked
    · simp only [toil, at_pc]
      omega
  · refine ⟨⟨calm, ⟨expected, inForce, checked⟩, later⟩, Or.inl ?_⟩
    simp only [toil, at_pc]
    omega

/-- Each step that may be tried again keeps the call at it and brings it nearer to its end. -/
theorem Persists.step (fit : Fit call info content before)
    (persists : Persists hasher call info content before past disk download)
    (retriable : download.Retriable content info event)
    (taken : Download.step .through hasher call (disk, download) event = some next) :
    Endures hasher call info content before past disk download event next := by
  obtain ⟨calm, state⟩ := persists
  have whole := taken
  unfold Download.step at taken
  dsimp only at taken
  cases at_pc : download.pc with
  | parsing =>
      simp only [at_pc] at taken state
      cases event with
      | parsed ok =>
          obtain rfl : ok = true := retriable
          cases taken
          obtain ⟨same, none_yet, none_either⟩ := state
          refine ⟨⟨calm, same, ?_, ?_⟩, Or.inl (by simp only [toil, at_pc]; omega)⟩
          · rw [acts_skip (by rintro _ ⟨⟩), none_yet]
          · rw [events_skip (by rintro _ ⟨⟩), none_either]
      | cancel => cases retriable
      | _ => cases taken
  | preparing =>
      simp only [at_pc] at taken state
      cases event with
      | prepared ok =>
          obtain rfl : ok = true := retriable
          cases taken
          obtain ⟨same, none_yet, none_either⟩ := state
          refine ⟨⟨calm, same, ?_, ?_⟩, Or.inl (by simp only [toil, at_pc]; omega)⟩
          · rw [acts_skip (by rintro _ ⟨⟩), none_yet]
          · rw [events_skip (by rintro _ ⟨⟩), none_either]
      | cancel => cases retriable
      | _ => cases taken
  | probing =>
      simp only [at_pc] at taken state
      cases event with
      | probed answer =>
          obtain rfl : answer = .ok info := retriable
          obtain ⟨rfl, none_yet, none_either⟩ := state
          cases taken
          exact probed_endures fit calm at_pc none_yet none_either
      | cancel | interrupted => cases retriable
      | _ => cases taken
  | multi job multi =>
      simp only [at_pc] at taken state
      obtain ⟨rfl, parallel, state⟩ := state
      cases event with
      | multi act =>
          obtain ⟨after, stepped, rfl⟩ := Option.map_eq_some_iff.mp taken
          have allowed := retriable (call.job info, multi) (by simp [multi?, at_pc])
          rcases state with ⟨rfl, rfl, none_yet⟩ | worked
          · exact load_endures fit calm at_pc parallel none_yet allowed stepped
          · exact multi_endures fit calm at_pc parallel worked allowed stepped
      | join =>
          obtain ⟨result, returned, rfl⟩ := Option.map_eq_some_iff.mp taken
          rcases state with ⟨rfl, -, -⟩ | worked
          · cases returned
          · exact multi_joined_endures fit calm at_pc parallel worked returned
      | _ => cases taken
  | single job single =>
      simp only [at_pc] at taken state
      obtain ⟨rfl, alone, trying, counted⟩ := state
      cases event with
      | single inner =>
          obtain ⟨after, stepped, rfl⟩ := Option.map_eq_some_iff.mp taken
          exact single_endures fit calm at_pc alone trying counted
            (retriable (call.job info, single) (by simp [single?, at_pc])) stepped
      | join =>
          obtain ⟨result, returned, rfl⟩ := Option.map_eq_some_iff.mp taken
          exact single_joined_endures calm at_pc alone trying counted returned
      | _ => cases taken
  | measuring found =>
      simp only [at_pc] at taken state
      cases event with
      | measured ok =>
          obtain rfl : ok = true := retriable
          obtain ⟨rfl, present, spared⟩ := state
          have there : disk.data.isSome = true := by
            rw [← Option.isSome_map, show disk.data.map _ = _ from present]
            rfl
          rw [there] at taken
          cases taken
          exact measured_endures fit calm at_pc present spared
      | cancel => cases retriable
      | _ => cases taken
  | verifying size expected =>
      simp only [at_pc] at taken state
      cases event with
      | hashed ok =>
          obtain rfl : ok = true := retriable
          obtain ⟨inForce, present, length, spared⟩ := state
          exact hashed_endures calm at_pc inForce present length spared whole
      | cancel => cases retriable
      | _ => cases taken
  | removing error =>
      simp only [at_pc] at taken state
      cases event with
      | removed ok =>
          cases taken
          refine ⟨⟨calm, state.1, ?_⟩, Or.inl (by simp only [toil, at_pc]; omega)⟩
          rw [spent_skip (by rintro _ ⟨⟩) (by rintro _ ⟨⟩)]
          exact state.2
      | cancel => cases retriable
      | _ => cases taken
  | deleting error =>
      simp only [at_pc] at taken state
      cases event with
      | deleted ok =>
          cases taken
          refine ⟨⟨calm, .rejected error ?_ state.1⟩, Or.inl (by simp only [toil, at_pc]; omega)⟩
          rw [spent_skip (by rintro _ ⟨⟩) (by rintro _ ⟨⟩)]
          exact state.2
      | cancel => cases retriable
      | _ => cases taken
  | returned | panicked =>
      simp only [at_pc] at taken
      cases event with
      | cancel => cases retriable
      | _ => cases taken

/-- A call that has not returned can go on. -/
theorem Persists.moves (persists : Persists hasher call info content before past disk download)
    (pending : download.outcome = none) :
    ∃ event, download.Retriable content info event ∧ ¬ download.Idle event ∧
      (Download.step .through hasher call (disk, download) event).isSome = true := by
  obtain ⟨-, state⟩ := persists
  cases at_pc : download.pc with
  | parsing => exact ⟨.parsed true, rfl, by rintro ⟨⟩, by simp [Download.step, at_pc]⟩
  | preparing => exact ⟨.prepared true, rfl, by rintro ⟨⟩, by simp [Download.step, at_pc]⟩
  | probing => exact ⟨.probed (.ok info), rfl, by rintro ⟨⟩, by simp [Download.step, at_pc]⟩
  | multi job multi =>
      simp only [at_pc] at state
      obtain ⟨rfl, parallel, state⟩ := state
      have mine : download.multi? = some (call.job info, multi) := by simp [multi?, at_pc]
      have proceed : (∃ act, multi.Retriable content act ∧ ¬ multi.Idle act ∧
            (Multi.step .through (call.job info) (disk, multi) act).isSome = true) →
          ∃ event, download.Retriable content info event ∧ ¬ download.Idle event ∧
            (Download.step .through hasher call (disk, download) event).isSome = true := by
        rintro ⟨act, retriable, busy, enabled⟩
        refine ⟨.multi act, ?_, ?_, by simpa [Download.step, at_pc] using enabled⟩
        · simpa [Retriable, mine] using retriable
        · simpa [Idle, mine] using busy
      rcases state with ⟨rfl, -⟩ | worked
      · refine proceed ⟨.main (.load true), trivial, by rintro ⟨⟩, ?_⟩
        simp only [Multi.step, Multi.mainStep, Multi.start]
        split
        · rfl
        · split <;> rfl
      · cases returned : multi.outcome with
        | none => exact proceed (worked.enduring.moves returned)
        | some result => exact ⟨.join, trivial, by rintro ⟨⟩, by simp [Download.step, at_pc, returned]⟩
  | single job single =>
      simp only [at_pc] at state
      obtain ⟨rfl, -, trying, -⟩ := state
      have mine : download.single? = some (call.job info, single) := by simp [single?, at_pc]
      cases returned : single.outcome with
      | none =>
          obtain ⟨event, retriable, busy, enabled⟩ := trying.moves returned
          refine ⟨.single event, ?_, ?_, by simpa [Download.step, at_pc] using enabled⟩
          · simpa [Retriable, mine] using retriable
          · simpa [Idle, mine] using busy
      | some result => exact ⟨.join, trivial, by rintro ⟨⟩, by simp [Download.step, at_pc, returned]⟩
  | measuring =>
      refine ⟨.measured true, rfl, by rintro ⟨⟩, ?_⟩
      simp only [Download.step, at_pc]
      split_ifs <;> rfl
  | verifying =>
      refine ⟨.hashed true, rfl, by rintro ⟨⟩, ?_⟩
      simp only [Download.step, at_pc]
      split <;> rfl
  | removing => exact ⟨.removed true, trivial, by rintro ⟨⟩, by simp [Download.step, at_pc]⟩
  | deleting => exact ⟨.deleted true, trivial, by rintro ⟨⟩, by simp [Download.step, at_pc]⟩
  | returned => simp [Download.outcome, at_pc] at pending
  | panicked => simp only [at_pc] at state

/-- Whatever happens to its attempts, a call comes to its end. It fails for a worker or a thread that has used up its
attempts, and in no other way but for a digest that is not that of the content. -/
theorem survives (fit : Fit call info content before) :
    Settles (Download.step .through hasher call) (fun state event => state.2.Retriable content info event)
        (fun state event => state.2.Idle event) (fun state => state.2.outcome.isSome = true)
        (before, Download.start call) ∧
      ∀ events last result, Run (Download.step .through hasher call)
          (fun state event => state.2.Retriable content info event) (before, Download.start call) events last →
        last.2.outcome = some result →
        (Spent call info events → ∃ source, result = .error (.retryExhausted call.cfg.budget source)) ∧
        (¬ Spent call info events →
          (∀ expected ∈ call.expectedChecksum info, hasher.verifyFile (some content) expected = .ok ()) →
          result = .ok content.length ∧ last.1.contents = some content) ∧
        (¬ Spent call info events → ∀ expected ∈ call.expectedChecksum info, ∀ error,
          hasher.verifyFile (some content) expected = .error error → result = .error error) := by
  have begun : Persists hasher call info content before [] before (Download.start call) := ⟨rfl, rfl, rfl, rfl⟩
  constructor
  · have ranked : Ranked (Download.step .through hasher call)
        (fun state event => state.2.Retriable content info event) (fun state event => state.2.Idle event)
        (fun state => state.2.outcome.isSome = true)
        (fun state => ∃ past, Persists hasher call info content before past state.1 state.2)
        (fun state => state.2.toil call info content state.1) := by
      refine ⟨?_, ?_, ?_⟩
      · rintro _ _ _ ⟨past, persists⟩ retriable taken
        exact ⟨_, (persists.step fit retriable taken).persists⟩
      · rintro _ _ _ ⟨past, persists⟩ retriable taken
        exact (persists.step fit retriable taken).falls
      · rintro state ⟨past, persists⟩ pending
        exact persists.moves (Option.not_isSome_iff_eq_none.mp pending)
    exact ranked.settles ⟨[], begun⟩
  · intro events last result run returned
    have persists := run.history (fun past state => Persists hasher call info content before past state.1 state.2)
      (fun _ _ _ _ persists retriable taken => (persists.step fit retriable taken).persists) begun
    have concluded := persists.2
    rw [(outcome_iff last.2 result).mp returned] at concluded
    cases concluded with
    | whole spared present accepted =>
        refine ⟨fun spent => absurd spent spared, fun _ _ => ⟨rfl, present⟩, fun _ expected inForce error refused => ?_⟩
        cases (accepted expected inForce).symm.trans refused
    | rejected error spared refused =>
        obtain ⟨expected, inForce, mismatch⟩ := refused
        refine ⟨fun spent => absurd spent spared, fun _ accepted => ?_, fun _ other same found given => ?_⟩
        · cases (accepted expected inForce).symm.trans mismatch
        · obtain rfl := Option.some.inj (inForce.symm.trans same)
          rw [Except.error.inj (mismatch.symm.trans given)]
    | spent source spent => exact ⟨fun _ => ⟨source, rfl⟩, fun spared => absurd spent spared,
        fun spared => absurd spent spared⟩

instance (content : List UInt8) (info : FileInfo) (download : Download) (event : DownloadEvent) :
    Decidable (download.Retriable content info event) := by
  induction event using DownloadEvent.casesOn with
  | parsed ok | prepared ok | measured ok | hashed ok => exact inferInstanceAs (Decidable (ok = true))
  | probed answer =>
      induction answer using Except.casesOn with
      | error => exact .isFalse (by rintro ⟨⟩)
      | ok other => exact decidable_of_iff (other = info) (by simp [Retriable])
  | multi act => exact inferInstanceAs (Decidable (∀ process ∈ download.multi?, process.2.Retriable content act))
  | single event => exact inferInstanceAs (Decidable (∀ process ∈ download.single?, process.2.Retriable content event))
  | cancel | interrupted => exact .isFalse not_false
  | _ => exact .isTrue trivial

def flakyCall : DownloadCall := ⟨{ url := "u", threadCount := some 1 }, {}⟩

/-- The one thread meets three failures. -/
def flakyEvents : List DownloadEvent :=
  [.parsed true, .prepared true, .probed (.ok Single.unsized.info)] ++ Single.flakyEvents.map .single ++
    [.join, .measured true]

def flakyRun : Option (Disk DownloadState × Download) :=
  replay (Download.step .through anyHasher flakyCall) (⟨none, none⟩, Download.start flakyCall) flakyEvents

/-- A call with two threads meets the failures of its worker. -/
def stubbornCall : DownloadCall := ⟨{ url := "u", threadCount := some 2 }, {}⟩

def stubbornEvents : List DownloadEvent :=
  [.parsed true, .prepared true, .probed (.ok Multi.oneByte.info), .multi (.main (.load true))] ++
    Multi.stubbornActs.map .multi ++ [.join, .measured true]

def stubbornRun : Option (Disk DownloadState × Download) :=
  replay (Download.step .through anyHasher stubbornCall) (⟨none, none⟩, Download.start stubbornCall) stubbornEvents

/-- Both paths get through their failures. -/
theorem survives_flaky :
    (flakyRun.get rfl).1.contents = some [1, 2, 3] ∧ (stubbornRun.get rfl).1.contents = some [7] := by
  constructor
  · have run : Run (Download.step .through anyHasher flakyCall)
        (fun state event => state.2.Retriable [1, 2, 3] Single.unsized.info event)
        (⟨none, none⟩, Download.start flakyCall) flakyEvents (flakyRun.get rfl) :=
      run_of_replay (by decide +kernel) (Option.some_get _).symm
    have fit : Fit flakyCall Single.unsized.info [1, 2, 3] (⟨none, none⟩ : Disk DownloadState) :=
      ⟨by decide, by rintro _ ⟨⟩, fun _ => by simp [Single.Partial, Disk.contents], fun parallel => by cases parallel⟩
    have spared : ¬ Spent flakyCall Single.unsized.info flakyEvents := by
      rw [Spent, if_neg (by decide)]
      decide
    exact (((survives fit).2 flakyEvents _ (.ok 3) run rfl).2.1 spared (by rintro _ ⟨⟩)).2
  · have run : Run (Download.step .through anyHasher stubbornCall)
        (fun state event => state.2.Retriable [7] Multi.oneByte.info event)
        (⟨none, none⟩, Download.start stubbornCall) stubbornEvents (stubbornRun.get rfl) :=
      run_of_replay (by decide +kernel) (Option.some_get _).symm
    have fit : Fit stubbornCall Multi.oneByte.info [7] (⟨none, none⟩ : Disk DownloadState) :=
      ⟨by decide, by decide, (fun alone => by cases alone), by rintro - _ ⟨⟩⟩
    have spared : ¬ Spent stubbornCall Multi.oneByte.info stubbornEvents := by
      rw [Spent, if_pos (by decide)]
      rintro ⟨index, many⟩
      exact absurd (Nat.le_trans many (failures_le index _)) (by decide)
    exact (((survives fit).2 stubbornEvents _ (.ok 1) run rfl).2.1 spared (by rintro _ ⟨⟩)).2

end Download

end FastDownloader
