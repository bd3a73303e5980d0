/-
This file proves which events of a task are reported, and in which order.
-/

import FastDownloader.Model.Report
import FastDownloader.Proof.Download.Step
import FastDownloader.Proof.Queue.Invariant

namespace FastDownloader

open Foundation

/-- The stage of a task is told by its reports. -/
inductive Stage where
  | fresh
  | queued
  | probing
  | started
  | ended (last : Report)
  deriving DecidableEq

/-- The report closes the lifecycle. -/
def Report.terminal : Report → Bool
  | .completed _ _ _ | .failed _ _ | .cancelled _ => true
  | _ => false

/-- Each stage admits the report that opens the next one. A terminal report is admitted from the first stage on. -/
def Stage.next : Stage → Report → Option Stage
  | .fresh, .queued _ _ => some .queued
  | .queued, .probing _ => some .probing
  | .probing, .started _ _ _ _ _ => some .started
  | .started, .progress _ _ _ => some .started
  | .fresh, _ | .ended _, _ => none
  | _, report => if report.terminal then some (.ended report) else none

def stageOf (reports : List Report) : Option Stage := reports.foldlM Stage.next .fresh

/-- A stage ends with a terminal report, and no other report is terminal. -/
theorem Stage.next_cases {stage after : Stage} {report : Report} (admitted : stage.next report = some after) :
    (report.terminal = true ∧ after = .ended report) ∨ (report.terminal = false ∧ ∀ last, after ≠ .ended last) := by
  cases stage <;> cases report <;> cases admitted <;> first | exact Or.inl ⟨rfl, rfl⟩ | exact Or.inr ⟨rfl, nofun⟩

theorem foldlM_ended {reports : List Report} {stage : Stage} {last : Report}
    (told : reports.foldlM Stage.next stage = some (.ended last)) :
    (reports = [] ∧ stage = .ended last) ∨
      ∃ front, reports = front ++ [last] ∧ last.terminal = true ∧ ∀ report ∈ front, report.terminal = false := by
  induction reports generalizing stage with
  | nil => exact Or.inl ⟨rfl, Option.some.inj told⟩
  | cons report rest ih =>
      rw [List.foldlM_cons] at told
      obtain ⟨middle, admitted, later⟩ := Option.bind_eq_some_iff.mp told
      refine Or.inr ?_
      rcases Stage.next_cases admitted with ⟨closes, rfl⟩ | ⟨open_, unended⟩
      · -- An ended stage admits no report, so the terminal report is the last one.
        cases rest with
        | nil =>
            obtain rfl := Stage.ended.inj (Option.some.inj later)
            exact ⟨[], rfl, closes, nofun⟩
        | cons => cases later
      · rcases ih later with ⟨_, ends⟩ | ⟨front, rfl, closes, earlier⟩
        · exact absurd ends (unended last)
        · exact ⟨report :: front, rfl, closes, List.forall_mem_cons.mpr ⟨open_, earlier⟩⟩

/-- A lifecycle that has ended has exactly one terminal report, and this report is the last one. -/
theorem stageOf_ended {reports : List Report} {last : Report} (told : stageOf reports = some (.ended last)) :
    ∃ front, reports = front ++ [last] ∧ last.terminal = true ∧ ∀ report ∈ front, report.terminal = false := by
  rcases foldlM_ended told with ⟨_, fresh⟩ | shape
  · cases fresh
  · exact shape

namespace Download

/-- The call has not chosen its path. -/
def early (download : Download) : Bool :=
  match download.pc with
  | .parsing | .preparing | .probing => true
  | _ => false

/-- The call is on one of its two paths. -/
def moving (download : Download) : Bool :=
  match download.pc with
  | .multi _ _ | .single _ _ => true
  | _ => false

theorem not_moving_of_early {download : Download} (early : download.early = true) : download.moving = false := by
  unfold Download.early at early
  unfold moving
  cases at_pc : download.pc with
  | multi | single => simp [at_pc] at early
  | _ => rfl

theorem moving_of_transfer {download : Download} (transfers : download.transfer.isSome = true) :
    download.moving = true := by
  unfold transfer at transfers
  unfold moving
  cases at_pc : download.pc with
  | multi | single => rfl
  | _ => simp [at_pc] at transfers

variable {Text : Type} [SerdeJson Text] {io : FileIo} {hasher : Hasher} {cfg : DownloaderConfig}
  {task : QueueTask SavedTask} {disk : Disk Text} {download : Download} {event : DownloadEvent}

/-- A step reports the choice of the path, or it stays on its side of that choice. -/
theorem step_path {next : Disk Text × Download}
    (taken : Download.step io hasher ⟨task.job.task, cfg⟩ (disk, download) event = some next) :
    (Reporting.onProbed cfg task event next.2 = [] ∧ (next.2.early = true → download.early = true) ∧
      (next.2.moving = true → download.moving = true)) ∨
    (download.early = true ∧ next.2.early = false ∧ ∃ size ranged threads,
      Reporting.onProbed cfg task event next.2 = [.started task.id size ranged threads task.job.savePath]) := by
  unfold Download.step at taken
  dsimp only at taken
  split at taken
  · rename_i job multi act at_pc
    obtain ⟨after, _, rfl⟩ := Option.map_eq_some_iff.mp taken
    exact Or.inl ⟨rfl, nofun, fun _ => by rw [moving, at_pc]⟩
  · rename_i job single event at_pc
    obtain ⟨after, _, rfl⟩ := Option.map_eq_some_iff.mp taken
    exact Or.inl ⟨rfl, nofun, fun _ => by rw [moving, at_pc]⟩
  · cases taken
  · cases taken
  · cases taken
    exact Or.inl ⟨rfl, id, id⟩
  · rename_i ok at_pc
    split_ifs at taken <;> cases taken
    · exact Or.inl ⟨rfl, fun _ => by rw [early, at_pc], nofun⟩
    · exact Or.inl ⟨rfl, nofun, nofun⟩
  · rename_i ok at_pc
    split_ifs at taken <;> cases taken
    · exact Or.inl ⟨rfl, fun _ => by rw [early, at_pc], nofun⟩
    · exact Or.inl ⟨rfl, nofun, nofun⟩
  · rename_i info at_pc
    cases taken
    have before : download.early = true := by rw [early, at_pc]
    dsimp only [Download.onProbed]
    split_ifs
    · exact Or.inl ⟨rfl, nofun, nofun⟩
    · exact Or.inr ⟨before, rfl, _, _, _, rfl⟩
    · exact Or.inr ⟨before, rfl, _, _, _, rfl⟩
  · cases taken
    exact Or.inl ⟨rfl, nofun, nofun⟩
  · split_ifs at taken
    cases taken
    exact Or.inl ⟨rfl, nofun, nofun⟩
  · obtain ⟨result, _, rfl⟩ := Option.map_eq_some_iff.mp taken
    cases result <;> exact Or.inl ⟨rfl, nofun, nofun⟩
  · obtain ⟨result, _, rfl⟩ := Option.map_eq_some_iff.mp taken
    cases result <;> exact Or.inl ⟨rfl, nofun, nofun⟩
  · split_ifs at taken <;> cases taken
    · dsimp only [onMeasured]
      split
      · exact Or.inl ⟨rfl, nofun, nofun⟩
      · split <;> exact Or.inl ⟨rfl, nofun, nofun⟩
    · exact Or.inl ⟨rfl, nofun, nofun⟩
  · split at taken <;> cases taken <;> exact Or.inl ⟨rfl, nofun, nofun⟩
  · cases taken
    exact Or.inl ⟨rfl, nofun, nofun⟩
  · cases taken
    exact Or.inl ⟨rfl, nofun, nofun⟩
  · cases taken

end Download

/-- The stage of a process that has a slot. -/
structure Reporting.Inside (reporting : Reporting) (stage : Stage) : Prop where
  open_ : stage = .probing ∨ stage = .started
  early : reporting.download.early = true → stage = .probing
  moving : reporting.download.moving = true → stage = .started
  ticking : reporting.ticker.pc ≠ .absent → reporting.download.moving = true

/-- The reports of a process agree with where it is. -/
def Reporting.Stands (task : QueueTask SavedTask) (reporting : Reporting) (stage : Stage) : Prop :=
  match reporting.pc with
  | .entering => stage = .queued ∧ reporting.download.early = true ∧ reporting.ticker.pc = .absent
  | .inside => reporting.Inside stage
  | .returned result => stage = .ended (Reporting.terminal task result)

namespace Reporting

variable {Text : Type} [SerdeJson Text] {io : FileIo} {hasher : Hasher} {cfg : DownloaderConfig}
  {task : QueueTask SavedTask} {store : ReportStore Text} {reporting : Reporting} {event : ReportingEvent}
  {stage : Stage}

theorem terminal_spec (task : QueueTask SavedTask) (result : Except Error Nat) :
    (terminal task result).terminal = true ∧ (terminal task result).id = task.id := by
  unfold terminal
  split
  · exact ⟨rfl, rfl⟩
  · split_ifs <;> exact ⟨rfl, rfl⟩

/-- An open stage admits every terminal report. -/
theorem next_terminal {report : Report} (open_ : stage = .probing ∨ stage = .started)
    (closes : report.terminal = true) : stage.next report = some (.ended report) := by
  rcases open_ with rfl | rfl <;> cases report <;> first | rfl | cases closes

/-- The progress task lives only while its transfer does. -/
theorem follow_absent {ticker : Ticker} {download : Download} (alive : (ticker.follow download).pc ≠ .absent) :
    download.moving = true := by
  refine Download.moving_of_transfer ?_
  cases known : download.transfer with
  | none => simp [Ticker.follow, known, Ticker.gone] at alive
  | some => rfl

/-- The progress task reports the position of its transfer or nothing, and it leaves the call as it is. -/
structure Ticks (task : QueueTask SavedTask) (reporting : Reporting) (next : List Report × Reporting) : Prop where
  alive : reporting.ticker.pc ≠ .absent
  reports : next.1 = [] ∨ next.1 = [reporting.emit task]
  pc : next.2.pc = reporting.pc
  download : next.2.download = reporting.download

theorem tick_ticks {next : List Report × Reporting} (taken : reporting.tick task = some next) :
    reporting.Ticks task next := by
  unfold tick at taken
  split at taken
  · rename_i at_pc
    cases taken
    exact ⟨by simp [at_pc], Or.inl rfl, rfl, rfl⟩
  · rename_i at_pc
    split_ifs at taken
    cases taken
    exact ⟨by simp [at_pc], Or.inr rfl, rfl, rfl⟩
  · cases taken

theorem stop_ticks {next : List Report × Reporting} (taken : reporting.stop task = some next) :
    reporting.Ticks task next := by
  unfold stop at taken
  split at taken
  · rename_i at_pc
    split_ifs at taken
    cases taken
    exact ⟨by simp [at_pc], Or.inr rfl, rfl, rfl⟩
  · cases taken

theorem broken_ticks {next : List Report × Reporting} (taken : reporting.broken = some next) :
    reporting.Ticks task next := by
  unfold broken at taken
  split at taken
  · rename_i at_pc
    cases taken
    exact ⟨by simp [at_pc], Or.inl rfl, rfl, rfl⟩
  · cases taken

/-- A progress report is admitted because a transfer has begun. -/
theorem Ticks.told {next : List Report × Reporting} (ticks : reporting.Ticks task next) (at_pc : reporting.pc = .inside)
    (inside : reporting.Inside stage) : (∀ report ∈ next.1, report.id = task.id) ∧
      next.1.foldlM Stage.next stage = some stage ∧ next.2.Stands task stage := by
  have started : stage = .started := inside.moving (inside.ticking ticks.alive)
  have stands : next.2.Stands task stage := by
    unfold Stands
    rw [ticks.pc, at_pc]
    refine ⟨inside.open_, ?_, ?_, ?_⟩
    · rw [ticks.download]
      exact inside.early
    · rw [ticks.download]
      exact inside.moving
    · rw [ticks.download]
      exact fun _ => inside.ticking ticks.alive
  rcases ticks.reports with silent | told
  · rw [silent]
    exact ⟨nofun, rfl, stands⟩
  · rw [told, started]
    refine ⟨?_, rfl, started ▸ stands⟩
    intro report member
    rw [List.mem_singleton.mp member]
    rfl

/-- A step reports only events of its task, and they move the stage with the process. -/
theorem step_told (stands : reporting.Stands task stage) {next : ReportStore Text × Reporting}
    (taken : Reporting.step cfg io hasher task (store, reporting) event = some next) :
    ∃ more after, next.1.reports = store.reports ++ more ∧ (∀ report ∈ more, report.id = task.id) ∧
      more.foldlM Stage.next stage = some after ∧ next.2.Stands task after := by
  unfold Reporting.step at taken
  dsimp only at taken
  unfold Stands at stands
  split at taken
  · rename_i at_pc
    cases taken
    rw [at_pc] at stands
    obtain ⟨rfl, early, absent⟩ := stands
    refine ⟨[.probing task.id], .probing, rfl, ?_, rfl, ?_⟩
    · intro report member
      rw [List.mem_singleton.mp member]
      rfl
    · refine ⟨Or.inl rfl, fun _ => rfl, fun moves => ?_, fun alive => absurd absent alive⟩
      cases (Download.not_moving_of_early early).symm.trans moves
  · rename_i event at_pc
    rw [at_pc] at stands
    split_ifs at taken
    obtain ⟨after, stepped, taken⟩ := Option.bind_eq_some_iff.mp taken
    split_ifs at taken
    cases taken
    rcases Download.step_path stepped with ⟨silent, early, moving⟩ | ⟨early, later, size, ranged, threads, told⟩
    · refine ⟨[], stage, ?_, nofun, rfl, ?_⟩
      · dsimp only [ReportStore.report, ReportStore.putDisk]
        rw [silent]
      · simp only [at_pc]
        exact ⟨stands.open_, fun still => stands.early (early still), fun moves => stands.moving (moving moves),
          follow_absent⟩
    · obtain rfl := stands.early early
      refine ⟨[.started task.id size ranged threads task.job.savePath], .started, ?_, ?_, rfl, ?_⟩
      · dsimp only [ReportStore.report, ReportStore.putDisk]
        rw [told]
      · intro report member
        rw [List.mem_singleton.mp member]
        rfl
      · simp only [at_pc]
        exact ⟨Or.inr rfl, fun still => Bool.noConfusion (later.symm.trans still), fun _ => rfl, follow_absent⟩
  · rename_i at_pc
    rw [at_pc] at stands
    obtain ⟨after, ticked, rfl⟩ := Option.map_eq_some_iff.mp taken
    exact ⟨after.1, stage, rfl, (tick_ticks ticked).told at_pc stands⟩
  · rename_i at_pc
    rw [at_pc] at stands
    obtain ⟨after, ticked, rfl⟩ := Option.map_eq_some_iff.mp taken
    exact ⟨after.1, stage, rfl, (stop_ticks ticked).told at_pc stands⟩
  · rename_i at_pc
    rw [at_pc] at stands
    obtain ⟨after, ticked, rfl⟩ := Option.map_eq_some_iff.mp taken
    exact ⟨after.1, stage, rfl, (broken_ticks ticked).told at_pc stands⟩
  · rename_i at_pc
    rw [at_pc] at stands
    obtain ⟨result, returned, rfl⟩ := Option.map_eq_some_iff.mp taken
    obtain ⟨closes, named⟩ := terminal_spec task result
    refine ⟨[terminal task result], .ended (terminal task result), rfl, ?_, ?_, rfl⟩
    · intro report member
      rw [List.mem_singleton.mp member]
      exact named
    · simp only [List.foldlM_cons, List.foldlM_nil, next_terminal stands.open_ closes]
      rfl
  · cases taken

theorem outcome_iff (reporting : Reporting) (result : Except Error Nat) :
    reporting.outcome = some result ↔ reporting.pc = .returned result := by
  unfold outcome
  cases reporting.pc <;> simp

/-- A process that has returned takes no step any more. -/
theorem returned_stuck {result : Except Error Nat} (at_pc : reporting.pc = .returned result) :
    Reporting.step cfg io hasher task (store, reporting) event = none := by
  unfold Reporting.step
  dsimp only
  rw [at_pc]

theorem Stands.cancel (stands : reporting.Stands task stage) : reporting.cancel.Stands task stage := by
  have sides : reporting.download.cancelNow.early = reporting.download.early ∧
      reporting.download.cancelNow.moving = reporting.download.moving := by
    unfold Download.cancelNow Download.early Download.moving
    cases reporting.download.pc <;> exact ⟨rfl, rfl⟩
  unfold Stands Reporting.cancel at *
  cases at_pc : reporting.pc with
  | entering =>
      simp only [at_pc] at stands ⊢
      exact ⟨stands.1, sides.1.trans stands.2.1, stands.2.2⟩
  | inside =>
      simp only [at_pc] at stands ⊢
      exact ⟨stands.open_, fun early => stands.early (sides.1.symm.trans early),
        fun moves => stands.moving (sides.2.symm.trans moves), fun alive => sides.2.trans (stands.ticking alive)⟩
  | returned result =>
      simp only [at_pc] at stands ⊢
      exact stands

end Reporting

def reportsOf (reports : List Report) (id : Nat) : List Report := reports.filter fun report => report.id = id

/-- The reports and the results of a task agree with its phase. -/
def Submission.Stands (submission : Submission Reporting SavedTask Nat) (stage : Stage) : Prop :=
  match submission.phase with
  | .locking | .sending | .refused | .queued | .dropped => stage = .fresh ∧ submission.replies = []
  | .waiting => stage = .queued ∧ submission.replies = []
  | .running process => process.Stands submission.task stage ∧ submission.replies = []
  | .cleaning (some process) | .releasing process | .finished (some process) =>
      ∃ result, process.pc = .returned result ∧ stage = .ended (Reporting.terminal submission.task result) ∧
        submission.replies = [result]
  | .cleaning none | .finished none => stage = .queued ∧ submission.replies = [.error .cancelled]

/-- Each task has told its own reports, and nobody else has told any. -/
structure Told (submissions : List (Submission Reporting SavedTask Nat)) (reports : List Report) : Prop where
  stands : ∀ submission ∈ submissions, ∃ stage, stageOf (reportsOf reports submission.task.id) = some stage ∧
    submission.Stands stage
  known : ∀ report ∈ reports, ∃ submission ∈ submissions, submission.task.id = report.id
  distinct : ∀ (place other : Nat) (one another : Submission Reporting SavedTask Nat),
    submissions[place]? = some one → submissions[other]? = some another → one.task.id = another.task.id →
      place = other

theorem reportsOf_append (reports more : List Report) (id : Nat) :
    reportsOf (reports ++ more) id = reportsOf reports id ++ reportsOf more id := List.filter_append _ _

theorem reportsOf_own {more : List Report} {id : Nat} (own : ∀ report ∈ more, report.id = id) :
    reportsOf more id = more := by
  rw [reportsOf, List.filter_eq_self]
  exact fun report member => decide_eq_true (own report member)

theorem reportsOf_other {more : List Report} {id other : Nat} (own : ∀ report ∈ more, report.id = id)
    (apart : id ≠ other) : reportsOf more other = [] := by
  rw [reportsOf, List.filter_eq_nil_iff]
  intro report member
  rw [decide_eq_true_iff, own report member]
  exact apart

namespace Told

variable {submissions : List (Submission Reporting SavedTask Nat)} {reports : List Report} {place : Nat}
  {old : Submission Reporting SavedTask Nat}

theorem nil : Told [] [] where
  stands _ member := by cases member
  known _ member := by cases member
  distinct _ _ _ _ found := by cases found

/-- A step of one task tells its own reports and moves its own stage. -/
theorem put (told : Told submissions reports) (present : submissions[place]? = some old)
    {new : Submission Reporting SavedTask Nat} {more : List Report} (same : new.task = old.task)
    (own : ∀ report ∈ more, report.id = old.task.id)
    (moved : ∀ stage, old.Stands stage → ∃ after, more.foldlM Stage.next stage = some after ∧ new.Stands after) :
    Told (submissions.set place new) (reports ++ more) where
  stands submission member := by
    rcases mem_set_cases member with rfl | ⟨other, apart, found⟩
    · obtain ⟨stage, told_, stands⟩ := told.stands old (List.mem_of_getElem? present)
      obtain ⟨after, opened, holds⟩ := moved stage stands
      refine ⟨after, ?_, holds⟩
      rw [same, reportsOf_append, reportsOf_own own, stageOf, List.foldlM_append]
      exact Option.bind_eq_some_iff.mpr ⟨stage, told_, opened⟩
    · obtain ⟨stage, told_, stands⟩ := told.stands submission (List.mem_of_getElem? found)
      have differs : old.task.id ≠ submission.task.id := fun equal =>
        apart (told.distinct place other old submission present found equal)
      refine ⟨stage, ?_, stands⟩
      rw [reportsOf_append, reportsOf_other own differs, List.append_nil]
      exact told_
  known report member := by
    obtain ⟨inside, _⟩ := List.getElem?_eq_some_iff.mp present
    have placed : (submissions.set place new)[place]? = some new := List.getElem?_set_self inside
    rcases List.mem_append.mp member with earlier | added
    · obtain ⟨submission, listed, named⟩ := told.known report earlier
      obtain ⟨other, found⟩ := List.getElem?_of_mem listed
      by_cases here : place = other
      · subst here
        obtain rfl := Option.some.inj (present.symm.trans found)
        exact ⟨new, List.mem_of_getElem? placed, same ▸ named⟩
      · exact ⟨submission, List.mem_of_getElem? ((List.getElem?_set_ne here).trans found), named⟩
    · exact ⟨new, List.mem_of_getElem? placed, same ▸ (own report added).symm⟩
  distinct := by
    have before : ∀ (other : Nat) (one : Submission Reporting SavedTask Nat),
        (submissions.set place new)[other]? = some one →
          ∃ was, submissions[other]? = some was ∧ was.task.id = one.task.id := by
      intro other one found
      by_cases here : place = other
      · subst here
        obtain ⟨inside, _⟩ := List.getElem?_eq_some_iff.mp present
        obtain rfl := Option.some.inj ((List.getElem?_set_self inside).symm.trans found)
        exact ⟨old, present, same ▸ rfl⟩
      · exact ⟨one, (List.getElem?_set_ne here).symm.trans found, rfl⟩
    intro first second one another foundOne foundAnother equal
    obtain ⟨wasOne, presentOne, namedOne⟩ := before first one foundOne
    obtain ⟨wasAnother, presentAnother, namedAnother⟩ := before second another foundAnother
    exact told.distinct first second wasOne wasAnother presentOne presentAnother
      (namedOne.trans (equal.trans namedAnother.symm))

/-- A change of all tasks at once that keeps each stage tells nothing. -/
theorem mapIdx (told : Told submissions reports)
    (change : Nat → Submission Reporting SavedTask Nat → Submission Reporting SavedTask Nat)
    (same : ∀ place submission, (change place submission).task = submission.task)
    (kept : ∀ place submission stage, submission.Stands stage → (change place submission).Stands stage) :
    Told (submissions.mapIdx change) reports where
  stands submission member := by
    obtain ⟨place, inside, rfl⟩ := List.mem_mapIdx.mp member
    obtain ⟨stage, told_, stands⟩ := told.stands _ (List.getElem_mem inside)
    exact ⟨stage, (same place _).symm ▸ told_, kept place _ stage stands⟩
  known report member := by
    obtain ⟨submission, listed, named⟩ := told.known report member
    obtain ⟨place, inside, rfl⟩ := List.getElem_of_mem listed
    exact ⟨_, List.mem_mapIdx.mpr ⟨place, inside, rfl⟩, (congrArg QueueTask.id (same place _)).trans named⟩
  distinct place other one another foundOne foundAnother equal := by
    rw [List.getElem?_mapIdx] at foundOne foundAnother
    obtain ⟨wasOne, presentOne, rfl⟩ := Option.map_eq_some_iff.mp foundOne
    obtain ⟨wasAnother, presentAnother, rfl⟩ := Option.map_eq_some_iff.mp foundAnother
    rw [same, same] at equal
    exact told.distinct place other wasOne wasAnother presentOne presentAnother equal

/-- A new task with an id of its own has told nothing. -/
theorem append (told : Told submissions reports) {fresh : Submission Reporting SavedTask Nat}
    (unused : ∀ submission ∈ submissions, submission.task.id ≠ fresh.task.id) (stands : fresh.Stands .fresh) :
    Told (submissions ++ [fresh]) reports where
  stands submission member := by
    rcases List.mem_append.mp member with earlier | added
    · exact told.stands submission earlier
    · obtain rfl := List.mem_singleton.mp added
      refine ⟨.fresh, ?_, stands⟩
      have silent : reportsOf reports submission.task.id = [] := by
        rw [reportsOf, List.filter_eq_nil_iff]
        intro report listed
        obtain ⟨owner, present, named⟩ := told.known report listed
        rw [decide_eq_true_iff]
        exact fun equal => unused owner present (named.trans equal)
      rw [silent]
      rfl
  known report member := by
    obtain ⟨submission, listed, named⟩ := told.known report member
    exact ⟨submission, List.mem_append_left _ listed, named⟩
  distinct place other one another foundOne foundAnother equal := by
    rw [List.getElem?_append] at foundOne foundAnother
    split_ifs at foundOne foundAnother with left right right
    · exact told.distinct place other one another foundOne foundAnother equal
    · obtain rfl := List.mem_singleton.mp (List.mem_of_getElem? foundAnother)
      exact absurd equal (unused one (List.mem_of_getElem? foundOne))
    · obtain rfl := List.mem_singleton.mp (List.mem_of_getElem? foundOne)
      exact absurd equal.symm (unused another (List.mem_of_getElem? foundAnother))
    · have insideOne := (List.getElem?_eq_some_iff.mp foundOne).1
      have insideAnother := (List.getElem?_eq_some_iff.mp foundAnother).1
      rw [List.length_singleton] at insideOne insideAnother
      omega

end Told

theorem Submission.Stands.abandon {submission : Submission Reporting SavedTask Nat} {stage : Stage}
    (stands : submission.Stands stage) : submission.abandon.Stands stage := by
  unfold Submission.abandon
  split
  · rename_i at_phase
    simpa only [Submission.Stands, at_phase] using stands
  · exact stands

theorem Submission.Stands.cancelNow {Text : Type} [SerdeJson Text] {cfg : DownloaderConfig} {io : FileIo}
    {hasher : Hasher} {submission : Submission Reporting SavedTask Nat} {stage : Stage}
    (stands : submission.Stands stage) :
    (submission.cancelNow (reporting Text cfg io hasher)).Stands stage := by
  unfold Submission.Stands at stands
  unfold Submission.cancelNow
  cases at_phase : submission.phase with
  | running process =>
      simp only [at_phase] at stands
      exact ⟨stands.1.cancel, stands.2⟩
  | cleaning left | finished left =>
      rw [at_phase] at stands
      cases left <;> exact stands
  | _ =>
      rw [at_phase] at stands
      exact stands

/-- Only a process that has a slot and no result yet can take a step. -/
theorem Submission.Stands.process {submission : Submission Reporting SavedTask Nat} {stage : Stage}
    (stands : submission.Stands stage) {process : Reporting} (at_process : submission.phase.process = some process) :
    submission.phase = .running process ∨ ∃ result, process.pc = .returned result := by
  unfold Submission.Stands at stands
  cases at_phase : submission.phase with
  | running running =>
      rw [at_phase] at at_process
      exact Or.inl (congrArg _ (Option.some.inj at_process))
  | cleaning left | finished left =>
      rw [at_phase] at at_process stands
      cases left with
      | none => cases at_process
      | some left =>
          obtain rfl := Option.some.inj at_process
          obtain ⟨result, at_pc, _⟩ := stands
          exact Or.inr ⟨result, at_pc⟩
  | releasing left =>
      rw [at_phase] at at_process stands
      obtain rfl := Option.some.inj at_process
      obtain ⟨result, at_pc, _⟩ := stands
      exact Or.inr ⟨result, at_pc⟩
  | _ =>
      rw [at_phase] at at_process
      cases at_process

namespace Queue

variable {Text : Type}

/-- No submission has the id of an earlier one. -/
def Distinct (queue : Queue (ReportStore Text) Reporting SavedTask Nat) :
    QueueAct SavedTask ReportingEvent → Prop
  | .submit id _ => ∀ submission ∈ queue.submissions, submission.task.id ≠ if id = 0 then queue.nextId else id
  | _ => True

/-- A task that is cancelled waits for its slot all the same. -/
def Patient (_queue : Queue (ReportStore Text) Reporting SavedTask Nat) :
    QueueAct SavedTask ReportingEvent → Prop
  | .giveUp _ => False
  | _ => True

end Queue

/-- Every step keeps the account of the reports. -/
theorem QueueMove.told {Text : Type} [SerdeJson Text] {config : QueueConfig} {cfg : DownloaderConfig} {io : FileIo}
    {hasher : Hasher} {queue after : Queue (ReportStore Text) Reporting SavedTask Nat}
    {act : QueueAct SavedTask ReportingEvent}
    (move : QueueMove config (reporting Text cfg io hasher) queue act after) (sound : queue.Sound config)
    (distinct : queue.Distinct act) (told : Told queue.submissions queue.store.reports) :
    Told after.submissions after.store.reports := by
  have alone : ∀ {place : Nat} {old new : Submission Reporting SavedTask Nat},
      queue.submissions[place]? = some old → new.task = old.task →
      (∀ stage, old.Stands stage → new.Stands stage) →
        Told (queue.submissions.set place new) queue.store.reports := by
    intro place old new present same kept
    have whole : Told (queue.submissions.set place new) (queue.store.reports ++ []) :=
      told.put present same nofun fun stage stands => ⟨stage, rfl, kept stage stands⟩
    rwa [List.append_nil] at whole
  cases move with
  | submitted id job held => exact told.append (fun submission member => distinct submission member) ⟨rfl, rfl⟩
  | inserted place submission present at_phase | sent place submission present at_phase
  | refused place submission present at_phase =>
      refine alone present rfl fun stage stands => ?_
      simpa only [Submission.Stands, at_phase] using stands
  | shut | dropped | ordered | drained => exact told
  | received place rest submission present running next =>
      have at_phase := sound.posted place submission (next ▸ List.mem_cons_self) present
      refine told.put present rfl ?_ fun stage stands => ⟨.queued, ?_, ?_⟩
      · intro report member
        rw [List.mem_singleton.mp member]
        rfl
      · simp only [Submission.Stands, at_phase] at stands
        rw [stands.1]
        rfl
      · simp only [Submission.Stands, at_phase] at stands
        exact ⟨rfl, stands.2⟩
  | exited =>
      have pointwise : queue.submissions.map Submission.abandon =
          queue.submissions.mapIdx fun _ submission => submission.abandon := by
        apply List.ext_getElem?
        simp
      dsimp only
      rw [pointwise]
      refine told.mapIdx _ (fun _ submission => ?_) fun _ _ _ stands => stands.abandon
      unfold Submission.abandon
      split <;> rfl
  | acquired place submission process present at_phase free begun =>
      refine alone present rfl fun stage stands => ?_
      simp only [Submission.Stands, at_phase] at stands
      obtain ⟨rfl, silent⟩ := stands
      have fresh : Reporting.start.Stands submission.task .queued := ⟨rfl, rfl, rfl⟩
      refine ⟨?_, silent⟩
      rw [begun]
      split_ifs
      · exact fresh.cancel
      · exact fresh
  | gaveUp place submission present at_phase cancelled =>
      refine alone present rfl fun stage stands => ?_
      simp only [Submission.Stands, at_phase] at stands
      refine ⟨stands.1, ?_⟩
      rw [stands.2]
      rfl
  | stepped place label submission process next present at_process taken =>
      obtain ⟨_, _, placed⟩ := told.stands submission (List.mem_of_getElem? present)
      rcases placed.process at_process with at_phase | ⟨result, at_pc⟩
      · have spoken : ∀ stage, process.Stands submission.task stage → ∃ more last,
            next.1.reports = queue.store.reports ++ more ∧ (∀ report ∈ more, report.id = submission.task.id) ∧
              more.foldlM Stage.next stage = some last ∧ next.2.Stands submission.task last :=
          fun stage stands => Reporting.step_told stands taken
        simp only [Submission.Stands, at_phase] at placed
        obtain ⟨more, _, spoke, own, _⟩ := spoken _ placed.1
        dsimp only [Queue.put]
        rw [spoke]
        refine told.put present rfl own fun stage stands => ?_
        simp only [Submission.Stands, at_phase] at stands
        obtain ⟨others, last, spokeToo, _, opened, holds⟩ := spoken stage stands.1
        obtain rfl := List.append_cancel_left (spoke.symm.trans spokeToo)
        refine ⟨last, opened, ?_⟩
        rw [at_phase]
        exact ⟨holds, stands.2⟩
      · have stuck : Reporting.step cfg io hasher submission.task (queue.store, process) label = none :=
          Reporting.returned_stuck at_pc
        cases stuck.symm.trans taken
  | replied place submission process result present at_phase returned =>
      refine alone present rfl fun stage stands => ?_
      simp only [Submission.Stands, at_phase] at stands
      have at_pc : process.pc = .returned result := (Reporting.outcome_iff process result).mp returned
      have ended := stands.1
      simp only [Reporting.Stands, at_pc] at ended
      exact ⟨result, at_pc, ended, by rw [stands.2]; rfl⟩
  | cleaned place submission left present at_phase =>
      refine alone present rfl fun stage stands => ?_
      simp only [Submission.Stands, at_phase] at stands
      cases left <;> exact stands
  | released place submission left present at_phase =>
      refine alone present rfl fun stage stands => ?_
      simp only [Submission.Stands, at_phase] at stands
      exact stands
  | cancelled _ chosen asked =>
      refine told.mapIdx _ ?_ ?_
      · intro place submission
        split_ifs <;> rfl
      · intro place submission stage stands
        split_ifs
        · exact stands.cancelNow
        · exact stands

/-- The body was cancelled before it had its slot. -/
def TaskPhase.skipped {Process : Type*} : TaskPhase Process → Bool
  | .cleaning none | .finished none => true
  | _ => false

theorem TaskPhase.blind_skipped {Process : Type*} : TaskPhase.Blind (@TaskPhase.skipped Process) :=
  blind_of (fun _ _ => rfl) (fun _ _ => rfl) (fun _ _ => rfl) fun _ _ => rfl

theorem SubmissionMove.skipped_eq {Store Process Job Label Value : Type*}
    {program : TaskProgram Store Process Job Label Value} {act : QueueAct Job Label} {place : Nat}
    {old new : Submission Process Job Value} (move : SubmissionMove program place old act new)
    (patient : ∀ other, act ≠ .giveUp other) : new.phase.skipped = old.phase.skipped := by
  cases move with
  | stayed => rfl
  | gaveUp => exact absurd rfl (patient place)
  | inserted at_phase | sent at_phase | refused at_phase | received at_phase | abandoned at_phase
  | acquired _ at_phase | replied _ _ at_phase | released _ at_phase => rw [at_phase]; rfl
  | stepped => exact TaskPhase.blind_skipped _ _
  | cleaned left at_phase => rw [at_phase]; cases left <;> rfl
  | cancelled => exact Submission.cancelNow_phase TaskPhase.blind_skipped _

namespace Queue

variable {Text : Type} {queue : Queue (ReportStore Text) Reporting SavedTask Nat}

/-- The reports of every task are the beginning of a lifecycle. A task with a result has ended its lifecycle with the
terminal report of this result. -/
def Narrated (queue : Queue (ReportStore Text) Reporting SavedTask Nat) : Prop :=
  ∀ submission ∈ queue.submissions, ∃ stage,
    stageOf (reportsOf queue.store.reports submission.task.id) = some stage ∧
      ∀ result ∈ submission.replies, stage = .ended (Reporting.terminal submission.task result)

def Skipped (queue : Queue (ReportStore Text) Reporting SavedTask Nat) : Prop :=
  ∃ submission ∈ queue.submissions, submission.phase.skipped = true

/-- A body that never had a slot has sent its result without a terminal report. The other bodies have not. -/
theorem narrated_iff_of_told (told : Told queue.submissions queue.store.reports) :
    queue.Narrated ↔ ¬ queue.Skipped := by
  constructor
  · rintro narrated ⟨submission, member, skipped⟩
    obtain ⟨stage, known, stands⟩ := told.stands submission member
    unfold Submission.Stands at stands
    cases at_phase : submission.phase with
    | cleaning left | finished left =>
        cases left with
        | some => rw [at_phase] at skipped; cases skipped
        | none =>
            simp only [at_phase] at stands
            obtain ⟨other, same, ends⟩ := narrated submission member
            have ended := ends (.error .cancelled) (by rw [stands.2]; exact List.mem_singleton_self _)
            obtain rfl := Option.some.inj (known.symm.trans same)
            cases stands.1.symm.trans ended
    | _ => rw [at_phase] at skipped; cases skipped
  · intro none_skipped submission member
    obtain ⟨stage, known, stands⟩ := told.stands submission member
    refine ⟨stage, known, fun result sent => ?_⟩
    unfold Submission.Stands at stands
    cases at_phase : submission.phase with
    | cleaning left | finished left =>
        simp only [at_phase] at stands
        cases left with
        | none => exact absurd ⟨submission, member, by rw [at_phase]; rfl⟩ none_skipped
        | some =>
            obtain ⟨own, _, rfl, only⟩ := stands
            rw [only] at sent
            rw [List.mem_singleton.mp sent]
    | releasing =>
        simp only [at_phase] at stands
        obtain ⟨own, _, rfl, only⟩ := stands
        rw [only] at sent
        rw [List.mem_singleton.mp sent]
    | _ =>
        simp only [at_phase] at stands
        rw [stands.2] at sent
        cases sent

end Queue

/-- A body is skipped by exactly the steps in which a cancelled task does not wait for its slot. -/
theorem QueueMove.skipped_iff {Text : Type} [SerdeJson Text] {config : QueueConfig} {cfg : DownloaderConfig}
    {io : FileIo} {hasher : Hasher} {queue after : Queue (ReportStore Text) Reporting SavedTask Nat}
    {act : QueueAct SavedTask ReportingEvent}
    (move : QueueMove config (reporting Text cfg io hasher) queue act after) (posted : queue.Posted) :
    after.Skipped ↔ queue.Skipped ∨ ¬ queue.Patient act := by
  cases act with
  | giveUp place =>
      cases move with
      | cancelled _ _ asked => cases asked
      | gaveUp _ submission present at_phase =>
          obtain ⟨inside, _⟩ := List.getElem?_eq_some_iff.mp present
          refine iff_of_true ⟨_, List.mem_of_getElem? (List.getElem?_set_self inside), rfl⟩ (Or.inr ?_)
          exact not_false
  | _ =>
      refine Iff.trans ?_ (or_iff_left (not_not_intro trivial)).symm
      exact move.exists_iff posted TaskPhase.skipped rfl fun turn => turn.skipped_eq nofun

/-- In a queue without two tasks of one id, all reports are right exactly as long as no task is cancelled before it has
its slot. -/
theorem Queue.narrated_iff {Text : Type} [SerdeJson Text] (config : QueueConfig) (cfg : DownloaderConfig)
    (io : FileIo) (hasher : Hasher) (disks : String → Disk Text) (acts : List (QueueAct SavedTask ReportingEvent))
    (queue : Queue (ReportStore Text) Reporting SavedTask Nat)
    (run : Run (Queue.step config (reporting Text cfg io hasher)) Queue.Distinct (Queue.new config ⟨disks, []⟩) acts
      queue) :
    queue.Narrated ↔
      Admitted (Queue.step config (reporting Text cfg io hasher)) Queue.Patient (Queue.new config ⟨disks, []⟩) acts := by
  have initial : (Queue.new config (ReportStore.mk disks []) : Queue _ Reporting SavedTask Nat).Sound config :=
    Queue.new_sound config _
  have told : Told queue.submissions queue.store.reports :=
    (run.invariant (fun state => state.Sound config ∧ Told state.submissions state.store.reports)
      (fun _ _ _ both distinct taken => ⟨(Queue.step_move taken).sound both.1,
        (Queue.step_move taken).told both.1 distinct both.2⟩) ⟨initial, Told.nil⟩).2
  have raised : queue.Skipped ↔ (Queue.new config (ReportStore.mk disks []) : Queue _ Reporting SavedTask Nat).Skipped ∨
      ¬ Admitted (Queue.step config (reporting Text cfg io hasher)) Queue.Patient (Queue.new config ⟨disks, []⟩) acts :=
    run.raised_iff (Queue.Sound config) Queue.Skipped (fun _ _ _ sound _ taken =>
      ⟨(Queue.step_move taken).sound sound, (Queue.step_move taken).skipped_iff sound.posted⟩) initial
  have fresh : ¬ (Queue.new config (ReportStore.mk disks []) : Queue _ Reporting SavedTask Nat).Skipped := by
    rintro ⟨_, member, _⟩
    cases member
  rw [Queue.narrated_iff_of_told told, raised, or_iff_right fresh, not_not]

instance {Text : Type} (queue : Queue (ReportStore Text) Reporting SavedTask Nat)
    (act : QueueAct SavedTask ReportingEvent) : Decidable (queue.Distinct act) := by
  unfold Queue.Distinct
  split <;> infer_instance

instance {Text : Type} (queue : Queue (ReportStore Text) Reporting SavedTask Nat)
    (act : QueueAct SavedTask ReportingEvent) : Decidable (queue.Patient act) := by
  unfold Queue.Patient
  split <;> infer_instance

/-- The tasks of a queue on empty disks. -/
def emptyQueue (config : QueueConfig) : Queue (ReportStore DownloadState) Reporting SavedTask Nat :=
  Queue.new config ⟨fun _ => ⟨none, none⟩, []⟩

def queueRun (config : QueueConfig) (acts : List (QueueAct SavedTask ReportingEvent)) :
    Option (Queue (ReportStore DownloadState) Reporting SavedTask Nat) :=
  replay (Queue.step config (reporting DownloadState {} .through anyHasher)) (emptyQueue config) acts

/-- The address of this task is not valid. -/
def badTask : SavedTask := ⟨"f", { url := "" }⟩

/-- A submit call enters its token and sends its message. -/
def submitActs (id place : Nat) : List (QueueAct SavedTask ReportingEvent) :=
  [.submit id badTask, .insert place, .send place]

/-- The body of this task gets its slot and sends its result. -/
def failActs (place : Nat) : List (QueueAct SavedTask ReportingEvent) :=
  [.acquire place, .step place .enter, .step place (.inner (.parsed false)), .step place .finish, .reply place]

/-- A task that fails reports its failure. -/
theorem Queue.narrated_iff_failed :
    ((queueRun ⟨1, 1⟩ (submitActs 0 0 ++ [.receive] ++ failActs 0)).get rfl).Narrated := by
  have run : Run (Queue.step ⟨1, 1⟩ (reporting DownloadState {} .through anyHasher)) Queue.Distinct
      (emptyQueue ⟨1, 1⟩) (submitActs 0 0 ++ [.receive] ++ failActs 0)
      ((queueRun ⟨1, 1⟩ (submitActs 0 0 ++ [.receive] ++ failActs 0)).get rfl) :=
    run_of_replay (by decide +kernel) (Option.some_get _).symm
  exact (Queue.narrated_iff _ _ _ _ _ _ _ run).mpr (by decide +kernel)

/-- A task is cancelled before it has its slot. -/
def skippedActs : List (QueueAct SavedTask ReportingEvent) := submitActs 0 0 ++ [.receive, .cancel 1, .giveUp 0]

/-- Such a task has its result, but no report tells its end. -/
theorem Queue.narrated_not_skipped :
    ¬ ∀ acts queue, Run (Queue.step ⟨1, 1⟩ (reporting DownloadState {} .through anyHasher))
      (fun queue act => queue.Distinct act ∧ queue.Open act) (emptyQueue ⟨1, 1⟩) acts queue → queue.Narrated := by
  intro always
  have run : Run (Queue.step ⟨1, 1⟩ (reporting DownloadState {} .through anyHasher))
      (fun queue act => queue.Distinct act ∧ queue.Open act) (emptyQueue ⟨1, 1⟩) skippedActs
      ((queueRun ⟨1, 1⟩ skippedActs).get rfl) :=
    run_of_replay (by decide +kernel) (Option.some_get _).symm
  obtain ⟨stage, known, ends⟩ := always _ _ run _ (List.mem_singleton_self _)
  have queued : stageOf (reportsOf ((queueRun ⟨1, 1⟩ skippedActs).get rfl).store.reports 1) = some .queued := by
    decide +kernel
  obtain rfl := Option.some.inj (queued.symm.trans known)
  cases ends (.error .cancelled) (List.mem_singleton_self _)

end FastDownloader
