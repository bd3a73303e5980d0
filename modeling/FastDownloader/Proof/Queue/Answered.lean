/-
This file shows that a cancelled task of the queue is answered, whatever the other tasks, the servers and the disks do.
-/

import FastDownloader.Proof.Download.Cancel
import FastDownloader.Proof.Queue.Lifecycle
import FastDownloader.Proof.Queue.Winding

namespace FastDownloader

open Foundation

namespace Multi

variable {Text : Type} [SerdeJson Text] {io : FileIo} {job : Job} {disk : Disk Text} {multi : Multi} {act : Act}
  {next : Disk Text × Multi}

/-- Only the main task changes the phase, and nobody else does anything before the load. -/
theorem step_phase (equipped : multi.Equipped) (taken : Multi.step io job (disk, multi) act = some next) :
    (∃ event, act = .main event ∧ mainStep job disk multi event = some next) ∨
      (next.2.phase = multi.phase ∧ (act = .cancel ∨ multi.phase ≠ .loading)) := by
  cases act with
  | cancel =>
      cases taken
      exact Or.inr ⟨rfl, Or.inl rfl⟩
  | main event => exact Or.inl ⟨event, rfl, taken⟩
  | worker index event =>
      simp only [Multi.step, workerStep] at taken
      split at taken
      · rename_i worker running present
        obtain ⟨⟨after, effect⟩, _, rfl⟩ := Option.map_eq_some_iff.mp taken
        refine Or.inr ⟨?_, Or.inr (equipped.later present)⟩
        cases effect <;> rfl
      · cases taken
  | saver event =>
      simp only [Multi.step, saverStep] at taken
      split at taken
      · rename_i at_phase
        obtain ⟨_, _, rfl⟩ := Option.map_eq_some_iff.mp taken
        exact Or.inr ⟨rfl, Or.inr (by rw [at_phase]; rintro ⟨⟩)⟩
      · rename_i at_phase
        obtain ⟨_, _, rfl⟩ := Option.map_eq_some_iff.mp taken
        exact Or.inr ⟨rfl, Or.inr (by rw [at_phase]; rintro ⟨⟩)⟩
      · cases taken
  | land index | lose index =>
      obtain ⟨worker, offset, bytes, present, carried⟩ := landStep_busy taken
      simp only [Multi.step, landStep, present, carried] at taken
      cases taken
      exact Or.inr ⟨rfl, Or.inr (equipped.later present)⟩
  | landOrphan index | loseOrphan index =>
      obtain ⟨offset, bytes, present⟩ := orphanStep_present taken
      simp only [Multi.step, orphanStep, present] at taken
      cases taken
      refine Or.inr ⟨rfl, Or.inr fun at_phase => ?_⟩
      rw [(equipped.bare at_phase).2] at present
      cases present

/-- The call does not come back to its load. -/
theorem step_loaded (equipped : multi.Equipped) (quiet : act ≠ .cancel)
    (taken : Multi.step io job (disk, multi) act = some next) : next.2.phase ≠ .loading := by
  rcases step_phase equipped taken with ⟨event, rfl, moved⟩ | ⟨same, later⟩
  · by_cases at_phase : multi.phase = .loading
    · obtain ⟨_, _, _, ⟨_, ended⟩ | ⟨_, ended⟩ | ⟨_, _, ended⟩⟩ := loadStep_cases at_phase moved
      all_goals
        rw [ended]
        rintro ⟨⟩
    · obtain ⟨phase, same, move⟩ := mainStep_move at_phase moved
      obtain ⟨after, moved⟩ := next
      dsimp only at same move
      rw [same]
      cases move with
      | conclude => exact verdict_ne_loading job multi
      | _ => rintro ⟨⟩
  · rw [same]
    exact later.resolve_left quiet

/-- Running workers are joined before the call goes on. -/
theorem step_running (equipped : multi.Equipped) (running : multi.phase = .running)
    (taken : Multi.step io job (disk, multi) act = some next) :
    next.2.phase = .running ∨ next.2.phase = .stopping := by
  rcases step_phase equipped taken with ⟨event, rfl, moved⟩ | ⟨same, -⟩
  · obtain ⟨phase, same, move⟩ := mainStep_move (by rw [running]; rintro ⟨⟩) moved
    obtain ⟨after, moved⟩ := next
    dsimp only at same move
    rw [same]
    cases move with
    | join => exact Or.inr rfl
    | created at_phase | notCreated at_phase | resized at_phase | notResized at_phase | settled ok at_phase
    | conclude at_phase | discarded ok error at_phase | reopened at_phase | notReopened at_phase
    | finalSync ok at_phase | deleted ok at_phase => cases running.symm.trans at_phase
  · exact Or.inl (same.trans running)

end Multi

namespace Single

variable {Text : Type} {io : FileIo} {job : Job} {disk : Disk Text} {single : Single} {event : SingleEvent}
  {next : Disk Text × Single}

/-- An open handle is closed before the call goes on. -/
theorem step_closing (open_ : single.hasHandle = true) (taken : Single.step io job (disk, single) event = some next) :
    next.2.hasHandle = true ∨ ∃ total result, single.pc = .closing total result := by
  have move := step_move taken
  obtain ⟨after, moved⟩ := next
  dsimp only at move ⊢
  cases move with
  | cancelled | landed | lost => exact Or.inl open_
  | stopped at_pc | began at_pc | looked _ at_pc | answered _ _ _ at_pc | created _ _ at_pc | opened _ at_pc
  | measured _ at_pc | slept at_pc =>
      simp [hasHandle, at_pc] at open_
  | failed _ _ _ shut | interrupted shut => cases shut.symm.trans open_
  | chunk =>
      unfold onChunk
      dsimp only
      split_ifs <;> exact Or.inl rfl
  | wrote | passed =>
      unfold onWrote
      dsimp only
      split_ifs <;> exact Or.inl rfl
  | flushed =>
      unfold onFlushed
      split_ifs <;> exact Or.inl rfl
  | closed total result _ at_pc => exact Or.inr ⟨total, result, at_pc⟩
  | ended | torn | synced | broken => exact Or.inl rfl

end Single

namespace Download

/-- The steps of a call up to the load of its path. -/
def stage (download : Download) : Nat :=
  match download.pc with
  | .parsing => 4
  | .preparing => 3
  | .probing => 2
  | .multi _ multi => match multi.phase with
    | .loading => 1
    | _ => 0
  | _ => 0

variable {Text : Type} [SerdeJson Text] {io : FileIo} {hasher : Hasher} {call : DownloadCall} {disk : Disk Text}
  {download : Download} {event : DownloadEvent} {next : Disk Text × Download}

theorem stage_le (download : Download) : download.stage ≤ 4 := by
  unfold stage
  split
  · exact Nat.le_refl 4
  · decide
  · decide
  · split <;> decide
  · exact Nat.zero_le 4

theorem stage_of_loaded {job : Job} {multi : Multi} (at_pc : download.pc = .multi job multi)
    (later : multi.phase ≠ .loading) : download.stage = 0 := by
  simp only [stage, at_pc]

theorem stage_of_loading {job : Job} {multi : Multi} (at_pc : download.pc = .multi job multi)
    (at_phase : multi.phase = .loading) : download.stage = 1 := by
  simp only [stage, at_pc, at_phase]

/-- Each step before the load is one of a few, and no later step comes back to them. -/
theorem step_stage (equipped : download.Equipped) (outside : event.cancels = false)
    (taken : Download.step io hasher call (disk, download) event = some next) :
    next.2.stage < download.stage ∨ (download.stage = 0 ∧ next.2.stage = 0) := by
  unfold Download.step at taken
  dsimp only at taken
  split at taken
  · rename_i job multi act at_pc
    simp only [Equipped, at_pc] at equipped
    obtain ⟨after, stepped, rfl⟩ := Option.map_eq_some_iff.mp taken
    have loaded := Multi.step_loaded equipped (by rintro rfl; cases outside) stepped
    have low : ({ download with pc := .multi job after.2 } : Download).stage = 0 := stage_of_loaded rfl loaded
    by_cases at_phase : multi.phase = .loading
    · refine Or.inl ?_
      rw [stage_of_loading at_pc at_phase, low]
      exact Nat.one_pos
    · exact Or.inr ⟨stage_of_loaded at_pc at_phase, low⟩
  · rename_i job single event at_pc
    obtain ⟨after, _, rfl⟩ := Option.map_eq_some_iff.mp taken
    exact Or.inr ⟨by rw [stage, at_pc], rfl⟩
  · cases taken
  · cases taken
  · cases outside
  · rename_i at_pc
    split_ifs at taken <;> cases taken <;> exact Or.inl (by simp [stage, at_pc])
  · rename_i at_pc
    split_ifs at taken <;> cases taken <;> exact Or.inl (by simp [stage, at_pc])
  · rename_i info at_pc
    cases taken
    refine Or.inl ?_
    unfold onProbed
    dsimp only
    split_ifs <;> simp [stage, at_pc, Multi.start]
  · rename_i at_pc
    cases taken
    exact Or.inl (by simp [stage, at_pc])
  · rename_i at_pc
    split_ifs at taken
    cases taken
    exact Or.inl (by simp [stage, at_pc])
  · rename_i job multi at_pc
    obtain ⟨result, returned, rfl⟩ := Option.map_eq_some_iff.mp taken
    have later : multi.phase ≠ .loading := by
      intro at_phase
      simp [Multi.outcome, at_phase] at returned
    exact Or.inr ⟨stage_of_loaded at_pc later, by cases result <;> rfl⟩
  · rename_i job single at_pc
    obtain ⟨result, _, rfl⟩ := Option.map_eq_some_iff.mp taken
    exact Or.inr ⟨by rw [stage, at_pc], by cases result <;> rfl⟩
  · rename_i at_pc
    split_ifs at taken <;> cases taken
    · refine Or.inr ⟨by rw [stage, at_pc], ?_⟩
      unfold onMeasured
      split
      · rfl
      · split <;> rfl
    · exact Or.inr ⟨by rw [stage, at_pc], rfl⟩
  · rename_i at_pc
    split at taken <;> cases taken <;> exact Or.inr ⟨by rw [stage, at_pc], rfl⟩
  · rename_i at_pc
    cases taken
    exact Or.inr ⟨by rw [stage, at_pc], rfl⟩
  · rename_i at_pc
    cases taken
    exact Or.inr ⟨by rw [stage, at_pc], rfl⟩
  · cases taken

/-- Behind the load the rank does not look at the disk. -/
theorem cancelRank_disk (late : download.stage = 0) (other : Disk Text) :
    download.cancelRank call other = download.cancelRank call disk := by
  unfold cancelRank
  cases at_pc : download.pc with
  | parsing | preparing | probing => simp [stage, at_pc] at late
  | multi job multi =>
      have later : multi.phase ≠ .loading := by
        intro at_phase
        rw [stage_of_loading at_pc at_phase] at late
        cases late
      have same : multi.phaseRank job other = multi.phaseRank job disk := Multi.phaseRank_disk later other
      simp only [Multi.cancelRank, same]
  | _ => rfl

omit [SerdeJson Text]

theorem cancelNow_readings (download : Download) : download.cancelNow.stage = download.stage ∧
    download.cancelNow.transfer = download.transfer := by
  obtain ⟨at_pc, cancelled⟩ := download
  cases at_pc <;> exact ⟨rfl, rfl⟩

theorem transfer_single {job : Job} {single : Single} (at_pc : download.pc = .single job single) :
    download.transfer.isSome = single.hasHandle := by
  simp only [transfer, at_pc, Single.hasHandle]
  cases single.pc <;> rfl

variable [SerdeJson Text]

theorem cancelNow_cancelRank (call : DownloadCall) (disk : Disk Text) (download : Download) :
    download.cancelNow.cancelRank call disk = download.cancelRank call disk := by
  obtain ⟨at_pc, cancelled⟩ := download
  cases at_pc <;> rfl

/-- A single-thread call takes one of its own steps, or its result is joined. -/
theorem step_single {job : Job} {single : Single} (at_pc : download.pc = .single job single)
    (taken : Download.step io hasher call (disk, download) event = some next) :
    (∃ inner moved, Single.step io job (disk, single) inner = some moved ∧
      next = (moved.1, { download with pc := .single job moved.2 })) ∨
    (∃ result, single.outcome = some result ∧ next = (disk, download.onJoin job.info result)) := by
  unfold Download.step at taken
  dsimp only at taken
  rw [at_pc] at taken
  cases event with
  | single inner =>
      obtain ⟨moved, stepped, rfl⟩ := Option.map_eq_some_iff.mp taken
      exact Or.inl ⟨inner, moved, stepped, rfl⟩
  | join =>
      obtain ⟨result, returned, rfl⟩ := Option.map_eq_some_iff.mp taken
      exact Or.inr ⟨result, returned, rfl⟩
  | _ => cases taken

/-- A transfer ends only where it has told its progress task to stop. -/
theorem step_stopping (equipped : download.Equipped) (transfers : download.transfer.isSome = true)
    (taken : Download.step io hasher call (disk, download) event = some next)
    (gone : next.2.transfer.isSome = false) : download.stopping = true := by
  cases at_pc : download.pc with
  | multi job multi =>
      simp only [Equipped, at_pc] at equipped
      cases at_phase : multi.phase with
      | stopping => simp only [stopping, at_pc, at_phase]
      | running =>
          rcases step_multi at_pc taken with ⟨act, later, stepped, same⟩ | ⟨result, returned, -⟩
          · cases same
            rcases Multi.step_running equipped at_phase stepped with still | stops
            · simp [transfer, still] at gone
            · simp [transfer, stops] at gone
          · simp [Multi.outcome, at_phase] at returned
      | _ => simp [transfer, at_pc, at_phase] at transfers
  | single job single =>
      rw [transfer_single at_pc] at transfers
      rcases step_single at_pc taken with ⟨inner, later, stepped, same⟩ | ⟨result, returned, -⟩
      · cases same
        rw [transfer_single rfl] at gone
        rcases Single.step_closing transfers stepped with open_ | ⟨total, result, closing⟩
        · cases gone.symm.trans open_
        · simp only [stopping, at_pc, closing]
      · cases at_end : single.pc <;> simp [Single.outcome, Single.hasHandle, at_end] at returned transfers
  | _ => simp [transfer, at_pc] at transfers

/-- The token can be set again and again. -/
theorem lingers_of_cancels (cancels : event.cancels = true) : download.Lingers event := by
  cases event with
  | cancel => trivial
  | multi act =>
      cases act with
      | cancel => exact fun _ _ => trivial
      | _ => cases cancels
  | single inner =>
      cases inner with
      | cancel => rfl
      | _ => cases cancels
  | _ => cases cancels

/-- An event from outside of the token that may come again and again belongs to the ticks of a running transfer. -/
theorem transfer_of_lingers (lingers : download.Lingers event) (outside : event.cancels = false)
    (taken : Download.step io hasher call (disk, download) event = some next) : download.transfer.isSome = true := by
  cases event with
  | multi act =>
      cases at_pc : download.pc with
      | multi job multi =>
          have ticks : multi.Lingers act := lingers (job, multi) (by rw [multi?, at_pc]; rfl)
          cases act with
          | saver event =>
              have running : multi.phase = .running := ticks
              simp only [transfer, at_pc, running, Option.isSome_some]
          | cancel => cases outside
          | _ => cases ticks
      | _ => simp [Download.step, at_pc] at taken
  | single inner =>
      obtain rfl : inner = .cancel := lingers
      cases outside
  | cancel => cases outside
  | _ => cases lingers

end Download

/-- A progress task that does not tick any more is nearer to its end. -/
def Ticker.rank (ticker : Ticker) : Nat :=
  match ticker.pc with
  | .starting => 2
  | .ticking => 1
  | .absent | .ended => 0

theorem Ticker.rank_le (ticker : Ticker) : ticker.rank ≤ 2 := by
  unfold rank
  split <;> decide

theorem Ticker.follow_alive (ticker : Ticker) (download : Download) :
    (ticker.follow download).pc ≠ .absent ↔ download.transfer.isSome = true := by
  unfold follow
  cases transfers : download.transfer with
  | none => simp [gone]
  | some shared => cases ticker.pc <;> simp

/-- The progress task lives on with its transfer, or it is gone. -/
theorem Ticker.follow_rank {ticker : Ticker} (alive : ticker.pc ≠ .absent) (download : Download) :
    (ticker.follow download).rank ≤ ticker.rank := by
  unfold follow
  cases transfers : download.transfer with
  | none => exact Nat.zero_le _
  | some shared =>
      cases at_pc : ticker.pc with
      | absent => exact absurd at_pc alive
      | _ => simp [rank, at_pc]

namespace Reporting

variable {Text : Type} [SerdeJson Text] {cfg : DownloaderConfig} {io : FileIo} {hasher : Hasher}
  {task : QueueTask SavedTask} {store : ReportStore Text} {reporting : Reporting} {event : ReportingEvent}
  {next : ReportStore Text × Reporting}

/-- These are the transitions of a process. -/
inductive Turn (cfg : DownloaderConfig) (io : FileIo) (hasher : Hasher) (task : QueueTask SavedTask)
    (disk : Disk Text) (reporting : Reporting) : ReportingEvent → Reporting → Prop
  | entered (at_pc : reporting.pc = .entering) :
      Turn cfg io hasher task disk reporting .enter { reporting with pc := .inside }
  | inner (event : DownloadEvent) (after : Disk Text × Download) (at_pc : reporting.pc = .inside)
      (outside : event.cancels = false)
      (stepped : Download.step io hasher ⟨task.job.task, cfg⟩ (disk, reporting.download) event = some after) :
      Turn cfg io hasher task disk reporting (.inner event)
        { reporting with download := after.2, ticker := reporting.ticker.follow after.2 }
  | ticked (at_pc : reporting.pc = .inside) (ticking : reporting.ticker.pc = .ticking) :
      Turn cfg io hasher task disk reporting .tick reporting
  | wound (event : ReportingEvent) (pc : TickerPc) (at_pc : reporting.pc = .inside)
      (alive : reporting.ticker.pc ≠ .absent) (still : pc ≠ .absent)
      (falls : ({ reporting.ticker with pc := pc } : Ticker).rank < reporting.ticker.rank) :
      Turn cfg io hasher task disk reporting event
        { reporting with ticker := { reporting.ticker with pc := pc } }
  | finished (result : Except Error Nat) (at_pc : reporting.pc = .inside)
      (returned : reporting.download.outcome = some result) :
      Turn cfg io hasher task disk reporting .finish { reporting with pc := .returned result }

/-- Each step of a process is one of the listed transitions. -/
theorem step_turn (taken : Reporting.step cfg io hasher task (store, reporting) event = some next) :
    Turn cfg io hasher task (store.disks task.job.savePath) reporting event next.2 := by
  unfold Reporting.step at taken
  dsimp only at taken
  split at taken
  · rename_i at_pc
    cases taken
    exact .entered at_pc
  · rename_i event at_pc
    split_ifs at taken with cancels
    obtain ⟨after, stepped, taken⟩ := Option.bind_eq_some_iff.mp taken
    split_ifs at taken
    cases taken
    exact .inner event after at_pc (Bool.eq_false_iff.mpr cancels) stepped
  · rename_i at_pc
    obtain ⟨after, ticked, rfl⟩ := Option.map_eq_some_iff.mp taken
    unfold tick at ticked
    split at ticked
    · rename_i starting
      cases ticked
      exact .wound _ .ticking at_pc (by rw [starting]; rintro ⟨⟩) (by rintro ⟨⟩) (by simp [Ticker.rank, starting])
    · rename_i ticking
      split_ifs at ticked
      cases ticked
      exact .ticked at_pc ticking
    · cases ticked
  · rename_i at_pc
    obtain ⟨after, stopped, rfl⟩ := Option.map_eq_some_iff.mp taken
    unfold stop at stopped
    split at stopped
    · rename_i ticking
      split_ifs at stopped
      cases stopped
      exact .wound _ .ended at_pc (by rw [ticking]; rintro ⟨⟩) (by rintro ⟨⟩) (by simp [Ticker.rank, ticking])
    · cases stopped
  · rename_i at_pc
    obtain ⟨after, broke, rfl⟩ := Option.map_eq_some_iff.mp taken
    unfold broken at broke
    split at broke
    · rename_i starting
      cases broke
      exact .wound _ .ended at_pc (by rw [starting]; rintro ⟨⟩) (by rintro ⟨⟩) (by simp [Ticker.rank, starting])
    · cases broke
  · rename_i at_pc
    obtain ⟨result, returned, rfl⟩ := Option.map_eq_some_iff.mp taken
    exact .finished result at_pc returned
  · cases taken

/-- The paths of the call hold their handles, and the progress task lives as long as its transfer. -/
structure Fit (reporting : Reporting) : Prop where
  equipped : reporting.download.Equipped
  alive : reporting.ticker.pc ≠ .absent ↔ reporting.download.transfer.isSome = true

/-- The steps that are left once the token is set. Each of them may spawn a progress task. -/
def height (Text : Type) [SerdeJson Text] (cfg : DownloaderConfig) (task : QueueTask SavedTask)
    (reporting : Reporting) : Nat ×ₗ Nat :=
  match reporting.pc with
  | .entering => toLex (5, 0)
  | .inside => toLex (reporting.download.stage,
      3 * reporting.download.cancelRank ⟨task.job.task, cfg⟩ (⟨none, none⟩ : Disk Text) + reporting.ticker.rank + 1)
  | .returned _ => toLex (0, 0)

/-- These events of the process can come as often as they like. -/
def Lingers (reporting : Reporting) : ReportingEvent → Prop
  | .tick => reporting.ticker.pc = .ticking
  | .inner event => reporting.download.Lingers event
  | _ => False

/-- The call has panicked. -/
def Lost (reporting : Reporting) : Prop := reporting.download.ended = true ∧ reporting.download.outcome = none

theorem start_fit : Reporting.start.Fit := ⟨trivial, by simp [start, Ticker.gone, Download.transfer]⟩

theorem Fit.cancel (fit : reporting.Fit) : reporting.cancel.Fit where
  equipped := fit.equipped.cancelNow
  alive := by
    rw [Reporting.cancel, (Download.cancelNow_readings reporting.download).2]
    exact fit.alive

theorem Fit.step (fit : reporting.Fit)
    (taken : Reporting.step cfg io hasher task (store, reporting) event = some next) : next.2.Fit := by
  have turn := step_turn taken
  obtain ⟨after, moved⟩ := next
  dsimp only at turn ⊢
  cases turn with
  | entered | finished => exact ⟨fit.equipped, fit.alive⟩
  | inner event after _ _ stepped => exact ⟨fit.equipped.step stepped, Ticker.follow_alive _ _⟩
  | ticked => exact fit
  | wound _ pc _ alive still => exact ⟨fit.equipped, iff_of_true still (fit.alive.mp alive)⟩

theorem step_told_token (fit : reporting.Fit) (told : reporting.download.Told)
    (taken : Reporting.step cfg io hasher task (store, reporting) event = some next) : next.2.download.Told := by
  have turn := step_turn taken
  obtain ⟨after, moved⟩ := next
  dsimp only at turn ⊢
  cases turn with
  | inner event after _ _ stepped => exact (Download.step_winds fit.equipped told stepped).told
  | _ => exact told

theorem cancel_height (task : QueueTask SavedTask) (reporting : Reporting) :
    reporting.cancel.height Text cfg task ≤ reporting.height Text cfg task := by
  have readings := Download.cancelNow_readings reporting.download
  refine le_of_eq ?_
  unfold height Reporting.cancel
  cases reporting.pc with
  | inside => simp only [readings.1, Download.cancelNow_cancelRank]
  | _ => rfl

/-- Each step brings a cancelled process nearer to its end, or it lingers. -/
theorem step_falls (fit : reporting.Fit) (told : reporting.download.Told)
    (taken : Reporting.step cfg io hasher task (store, reporting) event = some next) :
    next.2.height Text cfg task < reporting.height Text cfg task ∨
      (reporting.Lingers event ∧ next.2.height Text cfg task ≤ reporting.height Text cfg task) := by
  have turn := step_turn taken
  obtain ⟨after, moved⟩ := next
  dsimp only at turn ⊢
  cases turn with
  | entered at_pc =>
      have low : reporting.download.stage ≤ 4 := reporting.download.stage_le
      refine Or.inl ?_
      simp only [height, at_pc, Prod.Lex.toLex_lt_toLex]
      omega
  | ticked _ ticking => exact Or.inr ⟨ticking, le_rfl⟩
  | wound event pc at_pc _ _ falls =>
      refine Or.inl ?_
      simp only [height, at_pc, Prod.Lex.toLex_lt_toLex]
      exact Or.inr ⟨trivial, Nat.add_lt_add_right (Nat.add_lt_add_left falls _) 1⟩
  | finished result at_pc returned =>
      refine Or.inl ?_
      simp only [height, at_pc, Prod.Lex.toLex_lt_toLex]
      omega
  | inner event after at_pc outside stepped =>
      have winds := Download.step_winds fit.equipped told stepped
      simp only [height, at_pc, Prod.Lex.toLex_lt_toLex, Prod.Lex.toLex_le_toLex]
      rcases Download.step_stage fit.equipped outside stepped with earlier | ⟨late, later⟩
      · exact Or.inl (Or.inl earlier)
      · have before : reporting.download.cancelRank ⟨task.job.task, cfg⟩ (⟨none, none⟩ : Disk Text) =
            reporting.download.cancelRank ⟨task.job.task, cfg⟩ (store.disks task.job.savePath) :=
          Download.cancelRank_disk late _
        have behind : after.2.cancelRank ⟨task.job.task, cfg⟩ (⟨none, none⟩ : Disk Text) =
            after.2.cancelRank ⟨task.job.task, cfg⟩ after.1 := Download.cancelRank_disk later _
        rw [late, later, before, behind]
        have bounded := (reporting.ticker.follow after.2).rank_le
        rcases winds.falls with lower | ⟨lingers, level⟩
        · exact Or.inl (Or.inr ⟨rfl, by omega⟩)
        · have alive := fit.alive.mpr (Download.transfer_of_lingers lingers outside stepped)
          have follows := Ticker.follow_rank alive after.2
          exact Or.inr ⟨lingers, Or.inr ⟨rfl, by omega⟩⟩

/-- A cancelled process that has not panicked can go on to its result, whatever its disk holds. -/
theorem Fit.moves (fit : reporting.Fit) (told : reporting.download.Told) (alive : ¬ reporting.Lost)
    (pending : reporting.outcome = none) : ∃ event, ¬ reporting.Lingers event ∧
      (Reporting.step cfg io hasher task (store, reporting) event).isSome = true := by
  cases at_pc : reporting.pc with
  | entering => exact ⟨.enter, by rintro ⟨⟩, by simp [Reporting.step, at_pc]⟩
  | returned result => simp [Reporting.outcome, at_pc] at pending
  | inside =>
      cases ended : reporting.download.ended with
      | true =>
          cases returned : reporting.download.outcome with
          | none => exact absurd ⟨ended, returned⟩ alive
          | some result => exact ⟨.finish, by rintro ⟨⟩, by simp [Reporting.step, at_pc, returned]⟩
      | false =>
          obtain ⟨event, busy, enabled⟩ : ∃ event, ¬ reporting.download.Lingers event ∧
              (Download.step io hasher ⟨task.job.task, cfg⟩
                (store.disks task.job.savePath, reporting.download) event).isSome = true :=
            fit.equipped.moves told ended
          obtain ⟨after, stepped⟩ := Option.isSome_iff_exists.mp enabled
          have outside : event.cancels = false := by
            by_contra cancels
            rw [Bool.not_eq_false] at cancels
            exact busy (Download.lingers_of_cancels cancels)
          cases joined : reporting.joined after.2 with
          | true => exact ⟨.inner event, busy, by simp [Reporting.step, at_pc, outside, stepped, joined]⟩
          | false =>
              -- The progress task of the transfer is stopped before the call goes on.
              simp only [Reporting.joined, Bool.or_eq_false_iff, decide_eq_false_iff_not] at joined
              obtain ⟨⟨gone, present⟩, unended⟩ := joined
              cases ticks : reporting.ticker.pc with
              | absent => exact absurd ticks present
              | ended => exact absurd ticks unended
              | starting =>
                  refine ⟨.tick, fun ticking => ?_, by simp [Reporting.step, at_pc, Reporting.tick, ticks]⟩
                  cases ticks.symm.trans ticking
              | ticking =>
                  have stopping := Download.step_stopping fit.equipped (fit.alive.mp present) stepped gone
                  exact ⟨.stop, by rintro ⟨⟩, by simp [Reporting.step, at_pc, Reporting.stop, ticks, stopping]⟩

end Reporting

/-- The processes of the queue wind down once their tokens are set. -/
def Reporting.winding (Text : Type) [SerdeJson Text] (cfg : DownloaderConfig) (io : FileIo) (hasher : Hasher) :
    Winding (reporting Text cfg io hasher) (Nat ×ₗ Nat) where
  fit := Reporting.Fit
  told process := process.download.Told
  lost := Reporting.Lost
  lingers := Reporting.Lingers
  height := Reporting.height Text cfg
  start_fit _ := Reporting.start_fit
  cancel_fit _ fit := fit.cancel
  cancel_told process := Download.cancelNow_told process.download
  cancel_level := Reporting.cancel_height
  step_fit _ _ _ _ _ fit taken := Reporting.Fit.step fit taken
  step_told _ _ _ _ _ fit told taken := Reporting.step_told_token fit told taken
  falls _ _ _ _ _ fit told taken := Reporting.step_falls fit told taken
  moves _ _ _ fit told alive pending := Reporting.Fit.moves fit told alive pending

namespace Queue

variable {Text : Type} [SerdeJson Text]

/-- These acts do not bring the task at this place nearer to its answer. -/
abbrev Elsewhere (cfg : DownloaderConfig) (io : FileIo) (hasher : Hasher) (place : Nat) :
    Queue (ReportStore Text) Reporting SavedTask Nat → QueueAct SavedTask ReportingEvent → Prop :=
  (Reporting.winding Text cfg io hasher).Elsewhere place

/-- The receiver of the task at this place has resolved, or its body has panicked. -/
abbrev Answered (cfg : DownloaderConfig) (io : FileIo) (hasher : Hasher) (place : Nat) :
    Queue (ReportStore Text) Reporting SavedTask Nat → Prop :=
  (Reporting.winding Text cfg io hasher).Answered place

/--
A task that is cancelled at any moment of any run of the queue is answered. It needs no slot and no other task for it:
an act of its own is possible up to its answer, and apart from the ticks of its own tasks there are only finitely many.
A step of its download may be the answer to a request, the next piece of a stream or a timeout.
-/
theorem cancelled_answered (config : QueueConfig) (cfg : DownloaderConfig) (io : FileIo) (hasher : Hasher)
    (store : ReportStore Text) (acts : List (QueueAct SavedTask ReportingEvent))
    (queue : Queue (ReportStore Text) Reporting SavedTask Nat) (place : Nat)
    (submission : Submission Reporting SavedTask Nat)
    (run : Run (Queue.step config (reporting Text cfg io hasher)) (fun _ _ => True) (Queue.new config store) acts
      queue)
    (present : queue.submissions[place]? = some submission) (accepted : submission.phase.accepted = true)
    (cancelled : submission.cancelled = true) :
    Settles (Queue.step config (reporting Text cfg io hasher)) (fun _ _ => True)
        (Queue.Elsewhere cfg io hasher place) (Queue.Answered cfg io hasher place) queue ∧
      ∀ more later, Run (Queue.step config (reporting Text cfg io hasher)) (fun _ _ => True) queue more later →
        ¬ later.Answered cfg io hasher place → ∃ act, ¬ later.Elsewhere cfg io hasher place act ∧
          (Queue.step config (reporting Text cfg io hasher) later act).isSome = true := by
  have wound := (Reporting.winding Text cfg io hasher).run_wound run present accepted cancelled
  exact ⟨wound.settles, fun _ _ onward pending => wound.unblocked onward pending⟩

/-- The only slot belongs to the first task when the second one is cancelled. -/
def crowdedActs : List (QueueAct SavedTask ReportingEvent) :=
  submitActs 0 0 ++ [.receive] ++ submitActs 0 1 ++ [.receive, .acquire 0, .step 0 .enter, .cancel 2]

theorem cancelled_answered_crowded :
    ((queueRun ⟨1, 2⟩ crowdedActs).get rfl).permits = 0 ∧
      ∃ final, Queue.Answered {} .through anyHasher 1 final ∧
        Reaches (Queue.step ⟨1, 2⟩ (reporting DownloadState {} .through anyHasher)) (fun _ _ => True)
          ((queueRun ⟨1, 2⟩ crowdedActs).get rfl) final := by
  have run : Run (Queue.step ⟨1, 2⟩ (reporting DownloadState {} .through anyHasher)) (fun _ _ => True)
      (emptyQueue ⟨1, 2⟩) crowdedActs ((queueRun ⟨1, 2⟩ crowdedActs).get rfl) :=
    run_of_replay (by decide +kernel) (Option.some_get _).symm
  obtain ⟨settles, -⟩ := cancelled_answered ⟨1, 2⟩ {} .through anyHasher ⟨fun _ => ⟨none, none⟩, []⟩ crowdedActs _ 1
    ⟨⟨2, badTask⟩, .waiting, true, []⟩ run rfl rfl rfl
  exact ⟨rfl, settles.reaches [] _ (.nil _)⟩

end Queue

end FastDownloader
