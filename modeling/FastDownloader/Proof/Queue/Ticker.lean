/-
This file proves that the progress reports of a multi-thread call follow its byte counter up to the total.
-/

import FastDownloader.Foundation.Sampling
import FastDownloader.Proof.Download.Panics
import FastDownloader.Proof.Queue.Lifecycle

namespace FastDownloader

open Foundation

/-- The progress task has not been spawned. -/
def Phase.unticked : Phase → Bool
  | .opening | .sizing | .settling => true
  | _ => false

/-- The progress task lives from the spawn of the workers to the join of the background tasks. -/
def Phase.ticked : Phase → Bool
  | .running | .stopping => true
  | _ => false

/-- A multi-thread call has passed its final check of the byte count, or it has returned without an error. -/
def Download.delivered (download : Download) : Bool :=
  match download.pc with
  | .multi _ multi => multi.phase.checked
  | .measuring _ | .verifying _ _ | .removing _ | .deleting _ | .returned (.ok _) => true
  | _ => false

/-- The ranges of a resumed call hold these bytes already. -/
def resumedAmount (ranges : List WorkerRange) : Nat := (ranges.map fun range => range.current - range.start).sum

/-- The last value is the current one. No value is reported when the interval has a period of zero. -/
def LastIs (interval current : Nat) (values : List Nat) : Prop :=
  values.getLast? = some current ∨ (values = [] ∧ interval = 0)

/-- The call takes an event, or its token is cancelled from outside. -/
def Reporting.act {Text : Type} [SerdeJson Text] (cfg : DownloaderConfig) (io : FileIo) (hasher : Hasher)
    (task : QueueTask SavedTask) : Step (ReportStore Text × Reporting) (Option ReportingEvent)
  | (store, reporting), none => some (store, reporting.cancel)
  | state, some event => Reporting.step cfg io hasher task state event

def progressReport (task : QueueTask SavedTask) (job : Job) (downloaded : Nat) : Report :=
  .progress task.id downloaded (some job.fileSize)

/-- The progress task breaks only where its interval has a period of zero. -/
def Paced {State : Type} (interval : Nat) (_state : State) (event : Option ReportingEvent) : Prop :=
  event = some .broken → interval = 0

namespace Multi

variable {Text : Type} [SerdeJson Text] {right : Nat → UInt8 → Prop} {io : FileIo} {job : Job}
  {disk after : Disk Text} {multi next : Multi} {act : Act}

omit [SerdeJson Text] in
/-- The main task passes through the time of the progress task in one direction. -/
theorem MainMove.ticked {event : MainEvent} {phase : Phase} (move : MainMove job disk multi event after phase) :
    (multi.phase.unticked = true ∧ phase.ticked = true) ∨ (multi.phase = .running ∧ phase = .stopping) ∨
      (phase.ticked = false ∧ (phase.unticked = true → multi.phase.unticked = true) ∧
        (phase.checked = true → multi.phase = .stopping ∨ multi.phase.checked = true)) := by
  cases move with
  | created at_phase | resized at_phase =>
      exact Or.inr (Or.inr ⟨rfl, fun _ => by rw [at_phase]; rfl, nofun⟩)
  | notCreated | notResized | discarded | notReopened => exact Or.inr (Or.inr ⟨rfl, nofun, nofun⟩)
  | settled ok at_phase => exact Or.inl ⟨by rw [at_phase]; rfl, rfl⟩
  | join at_phase => exact Or.inr (Or.inl ⟨at_phase, rfl⟩)
  | conclude at_phase =>
      rcases verdict_cases job multi with ⟨_, same, _⟩ | same | ⟨same, _⟩ <;> rw [same] <;>
        exact Or.inr (Or.inr ⟨rfl, nofun, fun _ => Or.inl at_phase⟩)
  | reopened at_phase | finalSync ok at_phase | deleted ok at_phase =>
      exact Or.inr (Or.inr ⟨rfl, nofun, fun _ => Or.inr (by rw [at_phase]; rfl)⟩)

/-- A multi-thread call has not begun, or it is controlled. -/
def Held (job : Job) (multi : Multi) : Prop := Unbegun job multi ∨ Controlled (fun _ _ => True) job multi

/-- The counter grows while the workers run, and only the main task changes the phase. -/
theorem Change.counts (change : Change right io job disk multi act after next) :
    (∃ event phase, MainMove job disk multi event after phase ∧ next = { multi with phase := phase }) ∨
      (next.phase = multi.phase ∧ multi.downloaded ≤ next.downloaded ∧
        (multi.phase ≠ .running → next.downloaded = multi.downloaded)) := by
  cases change with
  | main event _ phase move => exact Or.inl ⟨event, phase, move, rfl⟩
  | worker _ _ _ _ effect running =>
      refine Or.inr ?_
      cases effect with
      | add bytes => exact ⟨rfl, Nat.le_add_right _ _, fun other => absurd running other⟩
      | none | write | orphan => exact ⟨rfl, Nat.le_refl _, fun _ => rfl⟩
  | cancelled | saver | landed | lost | orphanLanded | orphanLost =>
      exact Or.inr ⟨rfl, Nat.le_refl _, fun _ => rfl⟩

end Multi

namespace Download

variable {Text : Type} [SerdeJson Text] {io : FileIo} {hasher : Hasher} {call : DownloadCall} {disk : Disk Text}
  {download : Download} {event : DownloadEvent}

/-- Behind its transfer, a call cannot have its bytes delivered any more. -/
theorem step_delivered {next : Disk Text × Download}
    (taken : Download.step io hasher call (disk, download) event = some next) (still : download.moving = false)
    (delivered : next.2.delivered = true) : download.delivered = true := by
  have move := step_move taken
  rcases next with ⟨after, next⟩
  dsimp only at move delivered
  cases move with
  | cancelled => exact delivered
  | advanced _ pc early => rcases early with rfl | rfl <;> cases delivered
  | failed | deleted => cases delivered
  | probed info =>
      rcases onProbed_cases call download info with panics | ⟨_, job, multi, _, rfl, parallel⟩ |
        ⟨_, job, _, single⟩
      · rw [Download.delivered, panics] at delivered
        cases delivered
      · rw [Download.delivered, parallel] at delivered
        cases delivered
      · rw [Download.delivered, single] at delivered
        cases delivered
  | multi _ _ _ _ at_pc | joinedMulti _ _ at_pc | single _ _ _ _ at_pc | joinedSingle _ _ at_pc =>
      rw [moving, at_pc] at still
      cases still
  | measured _ at_pc | verified _ _ _ at_pc | corrupt _ _ _ _ at_pc | removed _ _ at_pc =>
      rw [Download.delivered, at_pc]

def Held (download : Download) : Prop := ∀ path ∈ download.multi?, Multi.Held path.1 path.2

theorem Held.step {next : Disk Text × Download} (held : download.Held)
    (taken : Download.step io hasher call (disk, download) event = some next) : next.2.Held := by
  refine multi_keeps ?_ ?_ held taken
  · exact fun info _ _ => Or.inl ⟨Or.inl rfl, rfl, rfl, rfl⟩
  · exact fun _ _ _ _ _ _ begun stepped => Multi.step_begun begun stepped

/-- A cancellation is a step of a multi-thread call that begins nothing. -/
theorem Held.cancelNow (held : download.Held) (io : FileIo) (disk : Disk Text) :
    download.cancelNow.Held := by
  obtain ⟨at_pc, cancelled⟩ := download
  cases at_pc with
  | multi job multi =>
      intro path member
      obtain rfl := Option.some.inj member
      have taken : Multi.step io job (disk, multi) .cancel = some (disk, { multi with cancelled := true }) := rfl
      exact Multi.step_begun (held (job, multi) rfl) taken
  | _ => exact held

end Download

/-- The progress task of a multi-thread call has reported these values of the byte counter. -/
structure Watched (job : Job) (resumed interval : Nat) (values : List Nat) (multi : Multi) (ticker : Ticker) :
    Prop where
  controlled : Multi.Controlled (fun _ _ => True) job multi
  sampled : Sampled resumed multi.downloaded values
  unticked : multi.phase.unticked = true → values = []
  idle : multi.phase.ticked = false → ticker.pc = .absent
  alive : multi.phase.ticked = true → ticker.pc ≠ .absent ∧ ticker.total = some job.fileSize ∧
    ticker.downloaded = multi.downloaded
  starting : ticker.pc = .starting → values = []
  ended : ticker.pc = .ended → (values = [] ∧ interval = 0) ∨
    (multi.phase = .stopping ∧ values.getLast? = some multi.downloaded)
  checked : multi.phase.checked = true → LastIs interval multi.downloaded values

/-- The transfer is over, and its last report has told the total if the bytes were delivered. -/
structure Rested (job : Job) (resumed interval : Nat) (values : List Nat) (reporting : Reporting) : Prop where
  early : reporting.download.early = false
  still : reporting.download.moving = false
  absent : reporting.ticker.pc = .absent
  sampled : Sampled resumed job.fileSize values
  delivered : reporting.download.delivered = true → LastIs interval job.fileSize values

/-- The reported values agree with where the call is. -/
def Reporting.Shows (job : Job) (resumed interval : Nat) (values : List Nat) (reporting : Reporting) : Prop :=
  match reporting.pc with
  | .entering => False
  | .inside => (∃ multi, reporting.download.pc = .multi job multi ∧
      Watched job resumed interval values multi reporting.ticker) ∨ Rested job resumed interval values reporting
  | .returned result => Rested job resumed interval values reporting ∧ reporting.download.pc = .returned result

/-- The call has begun with these ranges and has not spawned its progress task. -/
structure Reporting.Begun (job : Job) (ranges : List WorkerRange) (reporting : Reporting) : Prop where
  pc : reporting.pc = .inside
  multi : ∃ before, Multi.Unbegun job before ∧ reporting.download.pc = .multi job (before.begin ranges)
  ticker : reporting.ticker.pc = .absent

theorem Phase.not_checked_of_ticked {phase : Phase} (ticked : phase.ticked = true) : phase.checked = false := by
  cases phase <;> first | rfl | cases ticked

theorem Phase.not_unticked_of_ticked {phase : Phase} (ticked : phase.ticked = true) : phase.unticked = false := by
  cases phase <;> first | rfl | cases ticked

/-- The progress task shares the counter of its multi-thread call. -/
theorem Download.transfer_multi {download : Download} {job : Job} {multi : Multi}
    (at_pc : download.pc = .multi job multi) :
    download.transfer = if multi.phase.ticked then some (some job.fileSize, some multi.downloaded) else none := by
  unfold Download.transfer
  rw [at_pc]
  cases at_phase : multi.phase <;> simp [at_phase, Phase.ticked]

namespace Watched

variable {job : Job} {resumed interval : Nat} {values : List Nat} {multi next : Multi} {ticker : Ticker}

/-- A living progress task belongs to running workers or to their join. -/
theorem ticked (watched : Watched job resumed interval values multi ticker) (alive : ticker.pc ≠ .absent) :
    multi.phase.ticked = true := by
  by_contra past
  exact alive (watched.idle (Bool.eq_false_iff.mpr past))

/-- While the progress task lives, it is only asked about itself. -/
theorem of_ticked (controlled : Multi.Controlled (fun _ _ => True) job multi)
    (sampled : Sampled resumed multi.downloaded values) (ticks : multi.phase.ticked = true)
    (alive : ticker.pc ≠ .absent ∧ ticker.total = some job.fileSize ∧ ticker.downloaded = multi.downloaded)
    (starting : ticker.pc = .starting → values = [])
    (ended : ticker.pc = .ended → (values = [] ∧ interval = 0) ∨
      (multi.phase = .stopping ∧ values.getLast? = some multi.downloaded)) :
    Watched job resumed interval values multi ticker where
  controlled := controlled
  sampled := sampled
  unticked := fun early => Bool.noConfusion (early.symm.trans (Phase.not_unticked_of_ticked ticks))
  idle := fun past => Bool.noConfusion (past.symm.trans ticks)
  alive := fun _ => alive
  starting := starting
  ended := ended
  checked := fun passed => Bool.noConfusion (passed.symm.trans (Phase.not_checked_of_ticked ticks))

/-- The call spawns its progress task, which has reported nothing. -/
theorem spawn (watched : Watched job resumed interval values multi ticker)
    (controlled : Multi.Controlled (fun _ _ => True) job next) (before : multi.phase.unticked = true)
    (now : next.phase.ticked = true) (same : next.downloaded = multi.downloaded) :
    Watched job resumed interval values next ⟨.starting, some job.fileSize, next.downloaded⟩ :=
  of_ticked controlled (same ▸ watched.sampled) now ⟨nofun, rfl, rfl⟩ (fun _ => watched.unticked before) nofun

/-- The progress task sees the counter of its call, whoever moves it. -/
theorem follow (watched : Watched job resumed interval values multi ticker)
    (controlled : Multi.Controlled (fun _ _ => True) job next) (before : multi.phase.ticked = true)
    (now : next.phase.ticked = true) (grown : multi.downloaded ≤ next.downloaded)
    (stopped : multi.phase = .stopping → next.phase = .stopping ∧ next.downloaded = multi.downloaded) :
    Watched job resumed interval values next { ticker with downloaded := next.downloaded } := by
  obtain ⟨alive, total, _⟩ := watched.alive before
  refine of_ticked controlled (watched.sampled.grow grown) now ⟨alive, total, rfl⟩ watched.starting ?_
  intro at_pc
  rcases watched.ended at_pc with silent | ⟨stopping, last⟩
  · exact Or.inl silent
  · obtain ⟨still, same⟩ := stopped stopping
    exact Or.inr ⟨still, same ▸ last⟩

/-- The call goes on without a progress task. After a join, this task has reported the last position. -/
theorem leave (watched : Watched job resumed interval values multi ticker)
    (controlled : Multi.Controlled (fun _ _ => True) job next) (past : next.phase.ticked = false)
    (same : next.downloaded = multi.downloaded) (joined : ticker.pc = .absent ∨ ticker.pc = .ended)
    (early : next.phase.unticked = true → multi.phase.unticked = true)
    (passed : next.phase.checked = true → multi.phase = .stopping ∨ multi.phase.checked = true) :
    Watched job resumed interval values next .gone where
  controlled := controlled
  sampled := same ▸ watched.sampled
  unticked := fun now => watched.unticked (early now)
  idle := fun _ => rfl
  alive := fun now => Bool.noConfusion (past.symm.trans now)
  starting := nofun
  ended := nofun
  checked := by
    intro now
    rw [same]
    rcases passed now with stopping | before
    · have alive := (watched.alive (by rw [stopping]; rfl)).1
      rcases watched.ended (joined.resolve_left alive) with silent | ⟨_, last⟩
      · exact Or.inr silent
      · exact Or.inl last
    · exact watched.checked before

/-- The progress task is spawned by the first running call and then follows its counter. -/
theorem follow_eq {download : Download} (at_pc : download.pc = .multi job next) (ticker : Ticker) :
    ticker.follow download =
      if next.phase.ticked then
        if ticker.pc = .absent then ⟨.starting, some job.fileSize, next.downloaded⟩
        else { ticker with downloaded := next.downloaded }
      else .gone := by
  unfold Ticker.follow
  rw [Download.transfer_multi at_pc]
  cases next.phase.ticked <;> cases ticker.pc <;> rfl

/-- Each step of the call keeps the reported values. -/
theorem change {Text : Type} [SerdeJson Text] {io : FileIo} {disk after : Disk Text} {act : Act} {download : Download}
    (watched : Watched job resumed interval values multi ticker)
    (change : Multi.Change (fun _ _ => True) io job disk multi act after next)
    (at_pc : download.pc = .multi job next)
    (joined : download.transfer.isSome = true ∨ ticker.pc = .absent ∨ ticker.pc = .ended) :
    Watched job resumed interval values next (ticker.follow download) := by
  have controlled := watched.controlled.change change
  have free : next.phase.ticked = false → ticker.pc = .absent ∨ ticker.pc = .ended := by
    intro past
    rw [Download.transfer_multi at_pc, past] at joined
    exact joined.resolve_left nofun
  rw [follow_eq at_pc]
  rcases change.counts with ⟨event, phase, move, rfl⟩ | ⟨same, grown, settled⟩
  · rcases move.ticked with ⟨before, now⟩ | ⟨running, rfl⟩ | ⟨past, early, passed⟩
    · have absent : ticker.pc = .absent := by
        apply watched.idle
        by_contra ticks
        exact Bool.noConfusion (before.symm.trans (Phase.not_unticked_of_ticked (Bool.not_eq_false _ ▸ ticks)))
      rw [if_pos now, if_pos absent]
      exact watched.spawn controlled before now rfl
    · have before : multi.phase.ticked = true := by rw [running]; rfl
      have now : Phase.stopping.ticked = true := rfl
      rw [if_pos now, if_neg (watched.alive before).1]
      exact watched.follow controlled before now (Nat.le_refl _) fun _ => ⟨rfl, rfl⟩
    · rw [if_neg (Bool.eq_false_iff.mp past)]
      exact watched.leave controlled past rfl (free past) early passed
  · cases now : next.phase.ticked with
    | true =>
        have before : multi.phase.ticked = true := same ▸ now
        rw [if_pos rfl, if_neg (watched.alive before).1]
        refine watched.follow controlled before now grown fun stopping => ⟨same.trans stopping, settled ?_⟩
        rw [stopping]
        nofun
    | false =>
        rw [if_neg nofun]
        refine watched.leave controlled now (settled fun running => ?_) (free now) (same ▸ id) (same ▸ Or.inr)
        rw [same, running] at now
        cases now

/-- The first tick of the progress task is silent. -/
theorem awake (watched : Watched job resumed interval values multi ticker) (at_pc : ticker.pc = .starting) :
    Watched job resumed interval values multi { ticker with pc := .ticking } := by
  have ticks := watched.ticked (by rw [at_pc]; nofun)
  obtain ⟨_, total, counter⟩ := watched.alive ticks
  exact of_ticked watched.controlled watched.sampled ticks ⟨nofun, total, counter⟩ nofun nofun

/-- A progress task that breaks has reported nothing. -/
theorem broke (watched : Watched job resumed interval values multi ticker) (at_pc : ticker.pc = .starting)
    (zero : interval = 0) : Watched job resumed interval values multi { ticker with pc := .ended } := by
  have ticks := watched.ticked (by rw [at_pc]; nofun)
  obtain ⟨_, total, counter⟩ := watched.alive ticks
  refine of_ticked watched.controlled watched.sampled ticks ⟨nofun, total, counter⟩ nofun fun _ => ?_
  exact Or.inl ⟨watched.starting at_pc, zero⟩

/-- A report of the current position keeps the values in their order. -/
theorem told (watched : Watched job resumed interval values multi ticker) (at_pc : ticker.pc = .ticking)
    (pc : TickerPc) (goes : pc = .ticking ∨ (pc = .ended ∧ multi.phase = .stopping)) :
    Watched job resumed interval (values ++ [multi.downloaded]) multi { ticker with pc := pc } := by
  have ticks := watched.ticked (by rw [at_pc]; nofun)
  obtain ⟨_, total, counter⟩ := watched.alive ticks
  rcases goes with rfl | ⟨rfl, stopping⟩
  · exact of_ticked watched.controlled watched.sampled.take ticks ⟨nofun, total, counter⟩ nofun nofun
  · refine of_ticked watched.controlled watched.sampled.take ticks ⟨nofun, total, counter⟩ nofun fun _ => ?_
    exact Or.inr ⟨stopping, List.getLast?_concat⟩

/-- A multi-thread call goes on to count, or its result is joined. -/
theorem inner {Text : Type} [SerdeJson Text] {io : FileIo} {hasher : Hasher} {call : DownloadCall} {disk : Disk Text}
    {download : Download} {event : DownloadEvent} {next : Disk Text × Download}
    (watched : Watched job resumed interval values multi ticker)
    (at_pc : download.pc = .multi job multi)
    (taken : Download.step io hasher call (disk, download) event = some next)
    (joined : next.2.transfer.isSome = true ∨ ticker.pc = .absent ∨ ticker.pc = .ended) :
    (∃ moved, next.2.pc = .multi job moved ∧
      Watched job resumed interval values moved (ticker.follow next.2)) ∨
    (next.2.early = false ∧ next.2.moving = false ∧ Sampled resumed job.fileSize values ∧
      (next.2.delivered = true → LastIs interval job.fileSize values)) := by
  rcases Download.step_multi at_pc taken with ⟨act, moved, stepped, rfl⟩ | ⟨result, returned, rfl⟩
  · have change := watched.controlled.step_change (Multi.answered_any _ _) stepped
    exact Or.inl ⟨moved.2, rfl, watched.change change rfl joined⟩
  · have sampled : Sampled resumed job.fileSize values := watched.sampled.grow watched.controlled.downloaded_le
    cases result with
    | error error => exact Or.inr ⟨rfl, rfl, sampled, nofun⟩
    | ok =>
        have passed : multi.phase.checked = true := by
          rw [(Multi.outcome_iff _ _).mp returned]
          rfl
        have full : multi.downloaded = job.fileSize := watched.controlled.checked passed
        exact Or.inr ⟨rfl, rfl, sampled, fun _ => full ▸ watched.checked passed⟩

end Watched

namespace Reporting

variable {Text : Type} [SerdeJson Text] {io : FileIo} {hasher : Hasher} {cfg : DownloaderConfig}
  {task : QueueTask SavedTask} {store : ReportStore Text} {reporting : Reporting} {event : ReportingEvent}
  {job : Job} {resumed interval : Nat} {values : List Nat} {multi : Multi}

/-- A progress report tells the counter of its multi-thread call. -/
theorem emit_eq (watched : Watched job resumed interval values multi reporting.ticker)
    (alive : reporting.ticker.pc ≠ .absent) : reporting.emit task = progressReport task job multi.downloaded := by
  obtain ⟨_, total, counter⟩ := watched.alive (watched.ticked alive)
  rw [emit, counter, total]
  rfl

theorem phase_of_stopping (at_pc : reporting.download.pc = .multi job multi)
    (stopping : reporting.download.stopping = true) : multi.phase = .stopping := by
  rw [Download.stopping, at_pc] at stopping
  cases at_phase : multi.phase <;> simp [at_phase] at stopping ⊢

theorem tick_told {next : List Report × Reporting}
    (watched : Watched job resumed interval values multi reporting.ticker)
    (taken : reporting.tick task = some next) : ∃ more, next.1 = more.map (progressReport task job) ∧
      Watched job resumed interval (values ++ more) multi next.2.ticker := by
  unfold tick at taken
  split at taken
  · rename_i at_pc
    cases taken
    refine ⟨[], rfl, ?_⟩
    rw [List.append_nil]
    exact watched.awake at_pc
  · rename_i at_pc
    split_ifs at taken
    cases taken
    refine ⟨[multi.downloaded], ?_, ?_⟩
    · rw [emit_eq watched (by rw [at_pc]; nofun)]
      rfl
    · have kept := watched.told at_pc .ticking (Or.inl rfl)
      rwa [← at_pc] at kept
  · cases taken

theorem stop_told {next : List Report × Reporting} (at_multi : reporting.download.pc = .multi job multi)
    (watched : Watched job resumed interval values multi reporting.ticker)
    (taken : reporting.stop task = some next) : ∃ more, next.1 = more.map (progressReport task job) ∧
      Watched job resumed interval (values ++ more) multi next.2.ticker := by
  unfold stop at taken
  split at taken
  · rename_i at_pc
    split_ifs at taken with stopping
    cases taken
    refine ⟨[multi.downloaded], ?_, ?_⟩
    · rw [emit_eq watched (by rw [at_pc]; nofun)]
      rfl
    · exact watched.told at_pc .ended (Or.inr ⟨rfl, phase_of_stopping at_multi stopping⟩)
  · cases taken

theorem broken_told {next : List Report × Reporting}
    (watched : Watched job resumed interval values multi reporting.ticker) (zero : interval = 0)
    (taken : reporting.broken = some next) : ∃ more, next.1 = more.map (progressReport task job) ∧
      Watched job resumed interval (values ++ more) multi next.2.ticker := by
  unfold broken at taken
  split at taken
  · rename_i at_pc
    cases taken
    refine ⟨[], rfl, ?_⟩
    rw [List.append_nil]
    exact watched.broke at_pc zero
  · cases taken

omit [SerdeJson Text] in
/-- The progress task of a multi-thread call reports only values of the counter, while the call has no result. -/
theorem Shows.ticks {next : List Report × Reporting} (shows : reporting.Shows job resumed interval values)
    (at_pc : reporting.pc = .inside) (ticks : reporting.Ticks task next)
    (told : ∀ multi, reporting.download.pc = .multi job multi →
      Watched job resumed interval values multi reporting.ticker →
      ∃ more, next.1 = more.map (progressReport task job) ∧
        Watched job resumed interval (values ++ more) multi next.2.ticker) (store : ReportStore Text) :
    ∃ more, (store.report next.1).reports = store.reports ++
        (more.map (progressReport task job) ++ (next.2.outcome.map (terminal task)).toList) ∧
      reporting.outcome = none ∧ next.2.Shows job resumed interval (values ++ more) := by
  unfold Shows at shows ⊢
  rw [at_pc] at shows
  rcases shows with ⟨multi, at_multi, watched⟩ | rested
  · obtain ⟨more, same, kept⟩ := told multi at_multi watched
    have running : next.2.outcome = none := by rw [outcome, ticks.pc, at_pc]
    refine ⟨more, ?_, by rw [outcome, at_pc], ?_⟩
    · rw [running, ReportStore.report, same]
      simp only [Option.map_none, Option.toList_none, List.append_nil]
    · rw [ticks.pc, at_pc, ticks.download]
      exact Or.inl ⟨multi, at_multi, kept⟩
  · exact absurd rested.absent ticks.alive

/-- A progress task does not outlive the transfer of its call. -/
theorem follow_gone {download : Download} (still : download.moving = false) (ticker : Ticker) :
    (ticker.follow download).pc = .absent := by
  by_contra alive
  cases still.symm.trans (follow_absent alive)

theorem cancelNow_pc {download : Download} (still : download.moving = false) :
    download.cancelNow.pc = download.pc := by
  unfold Download.moving at still
  unfold Download.cancelNow
  cases at_pc : download.pc with
  | multi | single => simp [at_pc] at still
  | _ => rfl

/-- A step of the call itself reports nothing behind the choice of its path. -/
theorem Shows.inner {disk : Disk Text} {event : DownloadEvent} {next : Disk Text × Download}
    (shows : reporting.Shows job resumed interval values) (at_pc : reporting.pc = .inside)
    (taken : Download.step io hasher ⟨task.job.task, cfg⟩ (disk, reporting.download) event = some next)
    (joined : reporting.joined next.2 = true) :
    onProbed cfg task event next.2 = [] ∧
      Shows job resumed interval values
        { reporting with download := next.2, ticker := reporting.ticker.follow next.2 } := by
  unfold Shows at shows ⊢
  rw [at_pc] at shows
  dsimp only
  rw [at_pc]
  dsimp only
  have late : reporting.download.early = false := by
    rcases shows with ⟨multi, at_multi, _⟩ | rested
    · rw [Download.early, at_multi]
    · exact rested.early
  rcases Download.step_path taken with ⟨silent, early, moving⟩ | ⟨before, _⟩
  · refine ⟨silent, ?_⟩
    rcases shows with ⟨multi, at_multi, watched⟩ | rested
    · have free : next.2.transfer.isSome = true ∨ reporting.ticker.pc = .absent ∨ reporting.ticker.pc = .ended := by
        simpa only [Reporting.joined, Bool.or_eq_true, decide_eq_true_eq, or_assoc] using joined
      rcases watched.inner at_multi taken free with moved | ⟨early, still, sampled, delivered⟩
      · exact Or.inl moved
      · exact Or.inr ⟨early, still, follow_gone still _, sampled, delivered⟩
    · have still : next.2.moving = false := by
        by_contra moves
        cases rested.still.symm.trans (moving (Bool.not_eq_false _ ▸ moves))
      refine Or.inr ⟨?_, still, follow_gone still _, rested.sampled, fun delivered => ?_⟩
      · by_contra again
        cases late.symm.trans (early (Bool.not_eq_false _ ▸ again))
      · exact rested.delivered (Download.step_delivered taken rested.still delivered)
  · cases late.symm.trans before

/-- A step reports values of the counter, and the last step reports the end of the call. -/
theorem Shows.step {next : ReportStore Text × Reporting} (shows : reporting.Shows job resumed interval values)
    (paced : Paced interval (store, reporting) (some event))
    (taken : Reporting.step cfg io hasher task (store, reporting) event = some next) :
    ∃ more, next.1.reports = store.reports ++
        (more.map (progressReport task job) ++ (next.2.outcome.map (terminal task)).toList) ∧
      reporting.outcome = none ∧ next.2.Shows job resumed interval (values ++ more) := by
  unfold Reporting.step at taken
  dsimp only at taken
  split at taken
  · rename_i at_pc
    rw [Shows, at_pc] at shows
    cases shows
  · rename_i event at_pc
    split_ifs at taken
    obtain ⟨after, stepped, taken⟩ := Option.bind_eq_some_iff.mp taken
    split_ifs at taken with joined
    cases taken
    obtain ⟨silent, kept⟩ := shows.inner at_pc stepped joined
    refine ⟨[], ?_, by rw [outcome, at_pc], ?_⟩
    · dsimp only [ReportStore.report, ReportStore.putDisk]
      rw [silent, outcome]
      dsimp only
      rw [at_pc]
      rfl
    · rw [List.append_nil]
      exact kept
  · rename_i at_pc
    obtain ⟨after, ticked, rfl⟩ := Option.map_eq_some_iff.mp taken
    exact shows.ticks at_pc (tick_ticks ticked) (fun _ _ watched => tick_told watched ticked) store
  · rename_i at_pc
    obtain ⟨after, ticked, rfl⟩ := Option.map_eq_some_iff.mp taken
    exact shows.ticks at_pc (stop_ticks ticked) (fun _ at_multi watched => stop_told at_multi watched ticked) store
  · rename_i at_pc
    obtain ⟨after, ticked, rfl⟩ := Option.map_eq_some_iff.mp taken
    exact shows.ticks at_pc (broken_ticks ticked) (fun _ _ watched => broken_told watched (paced rfl) ticked) store
  · rename_i at_pc
    obtain ⟨result, returned, rfl⟩ := Option.map_eq_some_iff.mp taken
    refine ⟨[], rfl, by rw [outcome, at_pc], ?_⟩
    rw [List.append_nil]
    rw [Shows, at_pc] at shows
    have at_result := (Download.outcome_iff _ _).mp returned
    rcases shows with ⟨multi, at_multi, _⟩ | rested
    · cases at_multi.symm.trans at_result
    · exact ⟨⟨rested.early, rested.still, rested.absent, rested.sampled, rested.delivered⟩, at_result⟩
  · cases taken

/-- A cancellation reports nothing and moves nothing but the token. -/
theorem Shows.cancel (shows : reporting.Shows job resumed interval values) :
    reporting.cancel.Shows job resumed interval values := by
  have resting (rested : Rested job resumed interval values reporting) :
      reporting.cancel.download.pc = reporting.download.pc ∧
        Rested job resumed interval values reporting.cancel := by
    have same : reporting.cancel.download.pc = reporting.download.pc := cancelNow_pc rested.still
    refine ⟨same, ?_, ?_, rested.absent, rested.sampled, ?_⟩
    · rw [Download.early, same]
      exact rested.early
    · rw [Download.moving, same]
      exact rested.still
    · rw [Download.delivered, same]
      exact rested.delivered
  unfold Shows at shows ⊢
  have same : reporting.cancel.pc = reporting.pc := rfl
  rw [same]
  cases at_pc : reporting.pc with
  | entering => simp only [at_pc] at shows
  | inside =>
      simp only [at_pc] at shows ⊢
      rcases shows with ⟨multi, at_multi, watched⟩ | rested
      · have moved : reporting.cancel.download.pc = .multi job { multi with cancelled := true } := by
          rw [Reporting.cancel, Download.cancelNow, at_multi]
        have known := watched.controlled
        exact Or.inl ⟨_, moved, known.transport rfl rfl known.saver known.begun known.joined known.checked,
          watched.sampled, watched.unticked, watched.idle, watched.alive, watched.starting, watched.ended,
          watched.checked⟩
      · exact Or.inr (resting rested).2
  | returned result =>
      simp only [at_pc] at shows ⊢
      obtain ⟨still, rested⟩ := resting shows.1
      exact ⟨rested, still.trans shows.2⟩

theorem Begun.shows {file : Option Text} {ranges : List WorkerRange} (begun : reporting.Begun job ranges)
    (chosen : Multi.chooseRanges job job.fileSize file = some ranges) (interval : Nat) :
    reporting.Shows job (resumedAmount ranges) interval [] := by
  obtain ⟨before, unbegun, at_multi⟩ := begun.multi
  rw [Shows, begun.pc]
  refine Or.inl ⟨_, at_multi, unbegun.controlled chosen, .nil (Nat.le_refl _), fun _ => rfl, fun _ => begun.ticker,
    nofun, fun _ => rfl, ?_, nofun⟩
  intro ended
  cases begun.ticker.symm.trans ended

theorem held_act {label : Option ReportingEvent} {next : ReportStore Text × Reporting}
    (held : reporting.download.Held)
    (taken : Reporting.act cfg io hasher task (store, reporting) label = some next) : next.2.download.Held := by
  cases label with
  | none =>
      cases taken
      exact held.cancelNow io (store.disks task.job.savePath)
  | some event =>
      simp only [Reporting.act, Reporting.step] at taken
      split at taken
      · cases taken
        exact held
      · split_ifs at taken
        obtain ⟨after, stepped, taken⟩ := Option.bind_eq_some_iff.mp taken
        split_ifs at taken
        cases taken
        exact held.step stepped
      · obtain ⟨after, ticked, rfl⟩ := Option.map_eq_some_iff.mp taken
        exact (tick_ticks ticked).download ▸ held
      · obtain ⟨after, ticked, rfl⟩ := Option.map_eq_some_iff.mp taken
        exact (stop_ticks ticked).download ▸ held
      · obtain ⟨after, ticked, rfl⟩ := Option.map_eq_some_iff.mp taken
        have ticks : reporting.Ticks task after := broken_ticks ticked
        exact ticks.download ▸ held
      · obtain ⟨result, returned, rfl⟩ := Option.map_eq_some_iff.mp taken
        exact held
      · cases taken

/-- When the load of a multi-thread call has chosen its ranges, the call has begun with them. -/
theorem begins {disks : String → Disk Text} {labels : List (Option ReportingEvent)} {readable : Bool}
    {next : ReportStore Text × Reporting}
    (run : Run (Reporting.act cfg io hasher task) (fun _ _ => True) (⟨disks, []⟩, Reporting.start) labels
      (store, reporting))
    (at_multi : reporting.download.pc = .multi job multi)
    (taken : Reporting.act cfg io hasher task (store, reporting)
      (some (.inner (.multi (.main (.load readable))))) = some next) :
    (∃ stuck, next.2.download.pc = .multi job stuck ∧ Multi.Unbegun job stuck) ∨
      ∃ ranges, Multi.chooseRanges job job.fileSize
          (if readable then (store.disks task.job.savePath).dlstate else none) = some ranges ∧
        next.2.Begun job ranges := by
  have initial : Reporting.start.download.Held := by
    intro path member
    cases member
  have held : reporting.download.Held :=
    run.invariant (fun state => state.2.download.Held) (fun _ _ _ held _ taken => held_act held taken) initial
  cases at_pc : reporting.pc with
  | entering | returned => simp [Reporting.act, Reporting.step, at_pc] at taken
  | inside =>
      simp only [Reporting.act, Reporting.step, at_pc] at taken
      rw [if_neg nofun] at taken
      obtain ⟨after, stepped, taken⟩ := Option.bind_eq_some_iff.mp taken
      split_ifs at taken
      cases taken
      simp only [Download.step, at_multi] at stepped
      obtain ⟨moved, loaded, rfl⟩ := Option.map_eq_some_iff.mp stepped
      rcases held (job, multi) (by rw [Download.multi?, at_multi]; rfl) with unbegun | controlled
      · rcases unbegun.step_cases loaded with ⟨_, still⟩ | ⟨_, ranges, same, chosen, rfl⟩
        · exact Or.inl ⟨moved.2, rfl, still⟩
        · cases same
          exact Or.inr ⟨ranges, chosen, rfl, ⟨multi, unbegun, rfl⟩, rfl⟩
      · obtain ⟨phase, _, move⟩ := Multi.mainStep_move controlled.begun loaded
        cases move

/-- The values lie between the resumed bytes and the total, and the last one is the total if the bytes were
delivered. -/
theorem Shows.bounds (shows : reporting.Shows job resumed interval values) :
    Sampled resumed job.fileSize values ∧
      (reporting.download.delivered = true ∨ (∃ size, reporting.outcome = some (.ok size)) →
        LastIs interval job.fileSize values) := by
  unfold Shows at shows
  cases at_pc : reporting.pc with
  | entering => simp only [at_pc] at shows
  | inside =>
      have running : reporting.outcome = none := by rw [outcome, at_pc]
      simp only [at_pc] at shows
      rcases shows with ⟨multi, at_multi, watched⟩ | rested
      · refine ⟨watched.sampled.grow watched.controlled.downloaded_le, ?_⟩
        rintro (delivered | ⟨size, returned⟩)
        · rw [Download.delivered, at_multi] at delivered
          exact watched.controlled.checked delivered ▸ watched.checked delivered
        · cases running.symm.trans returned
      · refine ⟨rested.sampled, ?_⟩
        rintro (delivered | ⟨size, returned⟩)
        · exact rested.delivered delivered
        · cases running.symm.trans returned
  | returned result =>
      simp only [at_pc] at shows
      obtain ⟨rested, at_result⟩ := shows
      refine ⟨rested.sampled, ?_⟩
      rintro (delivered | ⟨size, returned⟩)
      · exact rested.delivered delivered
      · rw [outcome_iff, at_pc] at returned
        obtain rfl := ReportingPc.returned.inj returned
        apply rested.delivered
        rw [Download.delivered, at_result]

/-- The reports of a call that has begun are values of its counter, and the end of the call comes behind them. -/
theorem progress_exact (cfg : DownloaderConfig) (io : FileIo) (hasher : Hasher) (task : QueueTask SavedTask)
    (interval : Nat) {file : Option Text} {ranges : List WorkerRange}
    (chosen : Multi.chooseRanges job job.fileSize file = some ranges) {first last : ReportStore Text × Reporting}
    (begun : first.2.Begun job ranges) {labels : List (Option ReportingEvent)}
    (run : Run (Reporting.act cfg io hasher task) (Paced interval) first labels last) :
    ∃ values, last.1.reports = first.1.reports ++
        (values.map (progressReport task job) ++ (last.2.outcome.map (terminal task)).toList) ∧
      values.Pairwise (· ≤ ·) ∧ (∀ value ∈ values, resumedAmount ranges ≤ value ∧ value ≤ job.fileSize) ∧
      (last.2.download.delivered = true ∨ (∃ size, last.2.outcome = some (.ok size)) →
        LastIs interval job.fileSize values) := by
  have held := run.invariant
    (fun state => ∃ values, state.2.Shows job (resumedAmount ranges) interval values ∧
      state.1.reports = first.1.reports ++
        (values.map (progressReport task job) ++ (state.2.outcome.map (terminal task)).toList)) ?_ ?_
  · obtain ⟨values, shows, told⟩ := held
    obtain ⟨sampled, last⟩ := shows.bounds
    exact ⟨values, told, sampled.sorted, fun value member => ⟨sampled.above value member, sampled.below value member⟩,
      last⟩
  · rintro ⟨store, reporting⟩ label after ⟨values, shows, told⟩ paced taken
    cases label with
    | none =>
        cases taken
        exact ⟨values, shows.cancel, told⟩
    | some event =>
        obtain ⟨more, spoken, running, kept⟩ := shows.step paced taken
        refine ⟨values ++ more, kept, ?_⟩
        dsimp only at told running
        rw [spoken, told, running]
        simp only [Option.map_none, Option.toList_none, List.append_nil, List.map_append, List.append_assoc]
  · refine ⟨[], begun.shows chosen interval, ?_⟩
    rw [outcome, begun.pc]
    exact (List.append_nil _).symm

/-- This resource of two bytes has one range. -/
def tickedJob : Job := ⟨⟨"u", some 2, fits_two, true, none, none, none⟩, 2, {}⟩

def tickedTask : QueueTask SavedTask := ⟨7, ⟨"f", { url := "u" }⟩⟩

/-- The multi-thread call of this task has begun. -/
def tickedCall : ReportStore DownloadState × Reporting :=
  (⟨fun _ => ⟨none, none⟩, []⟩,
    ⟨.inside, ⟨.multi tickedJob ((Multi.start tickedJob).begin [⟨0, 0, 2⟩]), false⟩, .gone⟩)

/-- These are steps of the multi-thread call. -/
def multiLabels (acts : List Act) : List (Option ReportingEvent) := acts.map fun act => some (.inner (.multi act))

/-- The progress task ticks between the two bytes and reports the total when it is stopped. -/
def tickedLabels : List (Option ReportingEvent) :=
  multiLabels [.main (.created true), .main (.resized true), .main (.synced true), .worker 0 .check,
    .worker 0 (.reply (some ⟨206, none, none, [1, 2]⟩)), .worker 0 (.opened true), .worker 0 (.chunk 1),
    .worker 0 .wrote, .worker 0 .store, .worker 0 .count] ++
  [some .tick, some .tick] ++
  multiLabels [.worker 0 (.chunk 1), .worker 0 .wrote, .worker 0 .store, .worker 0 .count, .worker 0 (.flushed true),
    .worker 0 .check, .main .join] ++
  [some .stop] ++
  multiLabels [.saver (.opened true), .saver .halt, .saver .load, .saver .load, .saver (.saved true), .main .conclude,
    .main (.created true), .main (.synced true), .main (.deleted true)] ++
  [some (.inner .join), some (.inner (.measured true)), some .finish]

def tickedRun : Option (ReportStore DownloadState × Reporting) :=
  replay (Reporting.act {} .through anyHasher tickedTask) tickedCall tickedLabels

instance {State : Type} (interval : Nat) (state : State) : ∀ event, Decidable (Paced interval state event)
  | some .broken => decidable_of_iff (interval = 0) ⟨fun zero _ => zero, fun paced => paced rfl⟩
  | none | some .enter | some (.inner _) | some .tick | some .stop | some .finish => .isTrue nofun

/-- The call reports one byte, both bytes and its end. -/
theorem progress_exact_ticked : ∃ values, LastIs 1 2 values ∧
    (tickedRun.get rfl).1.reports = values.map (progressReport tickedTask tickedJob) ++ [.completed 7 "f" 2] := by
  have run : Run (Reporting.act {} .through anyHasher tickedTask) (Paced 1) tickedCall tickedLabels
      (tickedRun.get rfl) := run_of_replay (by decide +kernel) (Option.some_get _).symm
  have chosen : Multi.chooseRanges tickedJob tickedJob.fileSize (none : Option DownloadState) = some [⟨0, 0, 2⟩] := by
    decide +kernel
  obtain ⟨values, told, _, _, last⟩ :=
    progress_exact {} .through anyHasher tickedTask 1 chosen ⟨rfl, ⟨_, Multi.start_unbegun _, rfl⟩, rfl⟩ run
  have ended : (tickedRun.get rfl).2.outcome.map (terminal tickedTask) = some (.completed 7 "f" 2) := by decide +kernel
  have delivered : (tickedRun.get rfl).2.download.delivered = true := by decide +kernel
  rw [ended] at told
  exact ⟨values, last (Or.inl delivered), told⟩

end Reporting

end FastDownloader
