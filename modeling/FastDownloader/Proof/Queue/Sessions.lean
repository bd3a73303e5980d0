/-
This file projects the runs of the queue to one save path: what the queue does there is a session of downloads.
-/

import FastDownloader.Foundation.Simulation
import FastDownloader.Proof.Download.Cancel
import FastDownloader.Proof.Queue.Lifecycle

namespace FastDownloader

open Foundation

/-- A running task of the save path is a call of `download` with its process. -/
def Submission.running (cfg : DownloaderConfig) (path : String) (submission : Submission Reporting SavedTask Nat) :
    Option (DownloadCall × Download) :=
  match submission.phase with
  | .running reporting =>
      if submission.task.job.savePath = path then some (⟨submission.task.job.task, cfg⟩, reporting.download) else none
  | _ => none

namespace Queue

variable {Text : Type}

def runningOn (cfg : DownloaderConfig) (path : String) (queue : Queue (ReportStore Text) Reporting SavedTask Nat) :
    List (DownloadCall × Download) :=
  queue.submissions.filterMap (Submission.running cfg path)

/--
A task shares no file with a task of another save path.
A body gets its slot only while no other body has one for its save path.
-/
def Apart {File : Type} (resolve : String → Place File) (queue : Queue (ReportStore Text) Reporting SavedTask Nat) :
    QueueAct SavedTask ReportingEvent → Prop
  | .submit _ job => ∀ other ∈ queue.submissions,
      other.task.job.savePath = job.savePath ∨ SavesApart resolve job.savePath other.task.job.savePath
  | .acquire place => ∀ submission ∈ queue.submissions[place]?, ∀ other ∈ queue.submissions,
      other.phase.inside = true → other.task.job.savePath ≠ submission.task.job.savePath
  | _ => True

/-- The session has the disk of the save path and the only call that runs there. -/
structure Mirrors (cfg : DownloaderConfig) (path : String) (queue : Queue (ReportStore Text) Reporting SavedTask Nat)
    (session : Session (Disk Text) Download DownloadCall) : Prop where
  store : session.store = queue.store.disks path
  active : queue.runningOn cfg path = session.active.toList

/-- A task that runs on the save path is the only one. -/
theorem Mirrors.single {cfg : DownloaderConfig} {path : String}
    {queue : Queue (ReportStore Text) Reporting SavedTask Nat} {session : Session (Disk Text) Download DownloadCall}
    (mirrors : queue.Mirrors cfg path session) {submission : Submission Reporting SavedTask Nat}
    {call : DownloadCall × Download}
    (member : submission ∈ queue.submissions)
    (runs : Submission.running cfg path submission = some call) :
    session.active = some call ∧ queue.runningOn cfg path = [call] := by
  have listed : call ∈ queue.runningOn cfg path := List.mem_filterMap.mpr ⟨submission, member, runs⟩
  rw [mirrors.active, Option.mem_toList] at listed
  exact ⟨listed, by rw [mirrors.active, listed, Option.toList_some]⟩

end Queue

/-- A process that has returned has the result of its download, and a body lets go only of such a process. -/
def Submission.Settled (submission : Submission Reporting SavedTask Nat) : Prop :=
  ∀ process, submission.phase.process = some process →
    (∀ result, process.pc = .returned result → process.download.outcome = some result) ∧
      (submission.phase.inside = true ∨ ∃ result, process.pc = .returned result)

variable {Text : Type} [SerdeJson Text] {cfg : DownloaderConfig} {io : FileIo} {hasher : Hasher}
  {File : Type} {resolve : String → Place File}

namespace Reporting

variable {task : QueueTask SavedTask} {store : ReportStore Text} {reporting : Reporting} {event : ReportingEvent}

/-- The progress task only reports. -/
theorem Ticks.quiet {next : List Report × Reporting} (ticks : reporting.Ticks task next)
    (at_pc : reporting.pc = .inside) : next.2.download = reporting.download ∧
      ∀ result, next.2.pc = .returned result → reporting.download.outcome = some result := by
  refine ⟨ticks.download, fun result returned => ?_⟩
  rw [ticks.pc, at_pc] at returned
  cases returned

/-- A step of the process leaves the call and the disks alone, or it is one step of the call on its own disk. -/
theorem step_download {next : ReportStore Text × Reporting}
    (taken : Reporting.step cfg io hasher task (store, reporting) event = some next) :
    (next.1.disks = store.disks ∧ next.2.download = reporting.download ∧
      ∀ result, next.2.pc = .returned result → reporting.download.outcome = some result) ∨
    (next.2.pc = .inside ∧ ∃ inner after,
      Download.step io hasher ⟨task.job.task, cfg⟩ (store.disks task.job.savePath, reporting.download) inner =
        some after ∧ next.2.download = after.2 ∧
      next.1.disks = (store.putDisk task.job.savePath after.1).disks) := by
  unfold Reporting.step at taken
  dsimp only at taken
  split at taken
  · cases taken
    refine Or.inl ⟨rfl, rfl, ?_⟩
    rintro result ⟨⟩
  · rename_i event at_pc
    split_ifs at taken
    obtain ⟨after, stepped, taken⟩ := Option.bind_eq_some_iff.mp taken
    split_ifs at taken
    cases taken
    exact Or.inr ⟨at_pc, event, after, stepped, rfl, rfl⟩
  · rename_i at_pc
    obtain ⟨after, ticked, rfl⟩ := Option.map_eq_some_iff.mp taken
    exact Or.inl ⟨rfl, (tick_ticks ticked).quiet at_pc⟩
  · rename_i at_pc
    obtain ⟨after, ticked, rfl⟩ := Option.map_eq_some_iff.mp taken
    exact Or.inl ⟨rfl, (stop_ticks ticked).quiet at_pc⟩
  · rename_i at_pc
    obtain ⟨after, ticked, rfl⟩ := Option.map_eq_some_iff.mp taken
    have ticks : reporting.Ticks task after := broken_ticks ticked
    exact Or.inl ⟨rfl, ticks.quiet at_pc⟩
  · obtain ⟨result, returned, rfl⟩ := Option.map_eq_some_iff.mp taken
    refine Or.inl ⟨rfl, rfl, ?_⟩
    rintro other ⟨⟩
    exact returned
  · cases taken

end Reporting

namespace Submission

variable {submission : Submission Reporting SavedTask Nat}

/-- Only a process that has a slot and no result yet can take a step. -/
theorem Settled.process (settled : submission.Settled) {process : Reporting}
    (at_process : submission.phase.process = some process) :
    submission.phase = .running process ∨ ∃ result, process.pc = .returned result := by
  rcases (settled process at_process).2 with inside | returned
  · cases at_phase : submission.phase with
    | running running =>
        rw [at_phase] at at_process
        exact Or.inl (congrArg _ (Option.some.inj at_process))
    | _ => simp [at_phase, TaskPhase.inside] at inside
  · exact Or.inr returned

/-- A phase without a process is settled. -/
theorem settled_of_none (none : submission.phase.process = none) : submission.Settled := by
  intro process at_process
  cases none.symm.trans at_process

theorem Settled.cancelNow (settled : submission.Settled) :
    (submission.cancelNow (reporting Text cfg io hasher)).Settled := by
  unfold Submission.cancelNow
  split
  · rename_i process at_process
    obtain ⟨returns, placed⟩ := settled process at_process
    have cancelled : submission.phase.process = some process → ∀ other,
        (submission.phase.withProcess process.cancel).process = some other → other = process.cancel := by
      cases submission.phase with
      | cleaning left | finished left => cases left <;> simp [TaskPhase.process, TaskPhase.withProcess, eq_comm]
      | _ => simp [TaskPhase.process, TaskPhase.withProcess, eq_comm]
    intro other at_other
    obtain rfl := cancelled at_process other at_other
    refine ⟨fun result returned => ?_, placed.imp_left fun inside => ?_⟩
    · exact (Download.cancelNow_outcome process.download).trans (returns result returned)
    · cases at_phase : submission.phase with
      | running => rfl
      | _ => simp [at_phase, TaskPhase.inside] at inside
  · exact settled

/-- A cancelled task runs on with its token set. -/
theorem running_cancelNow (path : String) :
    Submission.running cfg path (submission.cancelNow (reporting Text cfg io hasher)) =
      (Submission.running cfg path submission).map fun call => (call.1, call.2.cancelNow) := by
  unfold Submission.cancelNow Submission.running
  cases at_phase : submission.phase with
  | running process =>
      simp only [TaskPhase.process, TaskPhase.withProcess]
      split_ifs <;> rfl
  | cleaning left | finished left => cases left <;> rfl
  | _ => rfl

theorem running_abandon (path : String) :
    Submission.running cfg path submission.abandon = Submission.running cfg path submission := by
  unfold Submission.abandon
  split
  · rename_i at_phase
    simp only [Submission.running, at_phase]
  · rfl

theorem Settled.abandon (settled : submission.Settled) : submission.abandon.Settled := by
  unfold Submission.abandon
  split
  · exact settled_of_none rfl
  · exact settled

end Submission

namespace QueueMove

variable {config : QueueConfig} {queue after : Queue (ReportStore Text) Reporting SavedTask Nat}
  {act : QueueAct SavedTask ReportingEvent}

/-- Every step keeps each submission settled. -/
theorem settled (move : QueueMove config (reporting Text cfg io hasher) queue act after)
    (settled : ∀ submission ∈ queue.submissions, submission.Settled) :
    ∀ submission ∈ after.submissions, submission.Settled := by
  have alone : ∀ {place : Nat} {new : Submission Reporting SavedTask Nat}, new.Settled →
      ∀ submission ∈ queue.submissions.set place new, submission.Settled := by
    intro place new holds submission member
    rcases List.mem_or_eq_of_mem_set member with old | rfl
    · exact settled submission old
    · exact holds
  cases move with
  | submitted id job held =>
      intro submission member
      rcases List.mem_append.mp member with old | new
      · exact settled submission old
      · rw [List.mem_singleton.mp new]
        exact Submission.settled_of_none rfl
  | shut | dropped | ordered | drained => exact settled
  | inserted | sent | refused | received | gaveUp => exact alone (Submission.settled_of_none rfl)
  | exited =>
      intro submission member
      obtain ⟨old, present, rfl⟩ := List.mem_map.mp member
      exact (settled old present).abandon
  | acquired place submission process present at_phase free begun =>
      refine alone fun other at_process => ?_
      obtain rfl := Option.some.inj at_process
      have entering : process.pc = .entering := by
        rw [begun]
        split_ifs <;> rfl
      refine ⟨fun result returned => ?_, Or.inl rfl⟩
      cases entering.symm.trans returned
  | stepped place label submission process next present at_process taken =>
      have held := settled submission (List.mem_of_getElem? present)
      rcases held.process at_process with at_phase | ⟨result, at_pc⟩
      · refine alone fun other at_other => ?_
        simp only [at_phase, TaskPhase.withProcess, TaskPhase.process, Option.some.injEq] at at_other
        subst at_other
        refine ⟨fun result returned => ?_, Or.inl (by simp only [at_phase, TaskPhase.withProcess, TaskPhase.inside])⟩
        rcases Reporting.step_download taken with ⟨_, same, returns⟩ | ⟨inside, _⟩
        · exact same ▸ returns result returned
        · cases inside.symm.trans returned
      · have stuck : Reporting.step cfg io hasher submission.task (queue.store, process) label = none :=
          Reporting.returned_stuck at_pc
        cases stuck.symm.trans taken
  | replied place submission process result present at_phase returned =>
      refine alone fun other at_other => ?_
      obtain rfl := Option.some.inj at_other
      have held := settled submission (List.mem_of_getElem? present) process (by rw [at_phase]; rfl)
      exact ⟨held.1, Or.inr ⟨result, (Reporting.outcome_iff process result).mp returned⟩⟩
  | cleaned place submission left present at_phase =>
      refine alone fun other at_other => ?_
      have held := settled submission (List.mem_of_getElem? present) other
      rw [at_phase] at held
      cases left with
      | none => cases at_other
      | some left => exact held at_other
  | released place submission left present at_phase =>
      refine alone fun other at_other => ?_
      have held := settled submission (List.mem_of_getElem? present) other
      rw [at_phase] at held
      exact held at_other
  | cancelled act chosen asked =>
      intro submission member
      obtain ⟨place, inside, rfl⟩ := List.mem_mapIdx.mp member
      have held := settled _ (List.getElem_mem inside)
      split_ifs
      · exact held.cancelNow
      · exact held

end QueueMove

namespace Queue

variable {config : QueueConfig} {queue after : Queue (ReportStore Text) Reporting SavedTask Nat} {path : String}
  {session : Session (Disk Text) Download DownloadCall}

/-- The session rests when neither the running calls nor the disk of the path change. -/
theorem Mirrors.rest (mirrors : queue.Mirrors cfg path session)
    (same : after.runningOn cfg path = queue.runningOn cfg path)
    (disks : after.store.disks path = queue.store.disks path) :
    ∃ next, Reaches (downloads Text io hasher).session (fun _ _ => True) session next ∧
      after.Mirrors cfg path next :=
  ⟨session, .refl session, mirrors.store.trans disks.symm, same.trans mirrors.active⟩

/-- The cancellation of some tasks cancels the running call of the path or leaves it alone. -/
theorem runningOn_cancelAt (cfg : DownloaderConfig) (io : FileIo) (hasher : Hasher) (path : String)
    (queue : Queue (ReportStore Text) Reporting SavedTask Nat)
    (chosen : Nat → Submission Reporting SavedTask Nat → Bool) :
    List.Forall₂ (fun before call => call = before ∨ call = (before.1, before.2.cancelNow))
      (queue.runningOn cfg path) ((queue.cancelAt (reporting Text cfg io hasher) chosen).runningOn cfg path) := by
  have pointwise : List.Forall₂
      (fun old new => new = old ∨ new = old.cancelNow (reporting Text cfg io hasher))
      queue.submissions (queue.cancelAt (reporting Text cfg io hasher) chosen).submissions := by
    refine List.forall₂_iff_get.mpr ⟨List.length_mapIdx.symm, fun place inside _ => ?_⟩
    simp only [Queue.cancelAt, List.get_eq_getElem, List.getElem_mapIdx]
    split_ifs
    · exact Or.inr rfl
    · exact Or.inl rfl
  refine List.rel_filterMap ?_ pointwise
  rintro old new (rfl | rfl)
  · cases Submission.running cfg path new with
    | none => exact .none
    | some call => exact .some (Or.inl rfl)
  · rw [Submission.running_cancelNow]
    cases Submission.running cfg path old with
    | none => exact .none
    | some call => exact .some (Or.inr rfl)

end Queue

namespace QueueMove

variable {config : QueueConfig} {queue after : Queue (ReportStore Text) Reporting SavedTask Nat}
  {act : QueueAct SavedTask ReportingEvent} {path : String} {session : Session (Disk Text) Download DownloadCall}

/-- A body that gets its slot starts the call of its path. -/
theorem mirrored_acquired {place : Nat} {submission : Submission Reporting SavedTask Nat} {process : Reporting}
    (mirrors : queue.Mirrors cfg path session) (apart : queue.Apart resolve (.acquire place))
    (present : queue.submissions[place]? = some submission) (at_phase : submission.phase = .waiting)
    (begun : process = if submission.cancelled then Reporting.start.cancel else Reporting.start) :
    ∃ next, Reaches (downloads Text io hasher).session (fun _ _ => True) session next ∧
      Queue.Mirrors cfg path { queue.put place { submission with phase := .running process } with
        permits := queue.permits - 1 } next := by
  have idle : Submission.running cfg path submission = none := by simp only [Submission.running, at_phase]
  by_cases own : submission.task.job.savePath = path
  · have fresh : queue.runningOn cfg path = [] := by
      rw [Queue.runningOn, List.filterMap_eq_nil_iff]
      intro other member
      unfold Submission.running
      split
      · rename_i running other_phase
        refine if_neg fun same => ?_
        exact apart submission present other member (by rw [other_phase]; rfl) (same.trans own.symm)
      · rfl
    obtain ⟨disk, active⟩ := session
    obtain ⟨stored, listed⟩ := mirrors
    obtain rfl : active = none := Option.toList_eq_nil_iff.mp (listed.symm.trans fresh)
    have started : (downloads Text io hasher).session ⟨disk, none⟩ (.start ⟨submission.task.job.task, cfg⟩) =
        some ⟨disk, some (⟨submission.task.job.task, cfg⟩, Reporting.start.download)⟩ := rfl
    have told : (downloads Text io hasher).session
        ⟨disk, some (⟨submission.task.job.task, cfg⟩, Reporting.start.download)⟩ (.step .cancel) =
        some ⟨disk, some (⟨submission.task.job.task, cfg⟩, Reporting.start.cancel.download)⟩ := rfl
    have opens : Reaches (downloads Text io hasher).session (fun _ _ => True) _ _ := .single _ trivial started
    refine ⟨⟨disk, some (⟨submission.task.job.task, cfg⟩, process.download)⟩, ?_, stored, ?_⟩
    · rw [begun]
      split_ifs
      · exact opens.trans (.single _ trivial told)
      · exact opens
    · have runs : Submission.running cfg path { submission with phase := .running process } =
          some (⟨submission.task.job.task, cfg⟩, process.download) := if_pos own
      exact (filterMap_set_fresh present fresh).trans (by rw [runs])
  · refine mirrors.rest (filterMap_set_eq present ?_) rfl
    rw [idle]
    exact if_neg own

/-- A step of a running process is at most one step of its call, and no other path sees it. -/
theorem mirrored_stepped {place : Nat} {label : ReportingEvent} {submission : Submission Reporting SavedTask Nat}
    {process : Reporting} {next : ReportStore Text × Reporting} (mirrors : queue.Mirrors cfg path session)
    (present : queue.submissions[place]? = some submission) (at_phase : submission.phase = .running process)
    (taken : Reporting.step cfg io hasher submission.task (queue.store, process) label = some next) :
    ∃ other, Reaches (downloads Text io hasher).session (fun _ _ => True) session other ∧
      Queue.Mirrors cfg path { queue.put place { submission with phase := submission.phase.withProcess next.2 } with
        store := next.1 } other := by
  have later : Submission.running cfg path { submission with phase := submission.phase.withProcess next.2 } =
      if submission.task.job.savePath = path then some (⟨submission.task.job.task, cfg⟩, next.2.download)
      else none := by
    rw [at_phase]
    rfl
  have runs : Submission.running cfg path submission =
      if submission.task.job.savePath = path then some (⟨submission.task.job.task, cfg⟩, process.download)
      else none := by
    simp only [Submission.running, at_phase]
  rcases Reporting.step_download taken with ⟨disks, same, _⟩ | ⟨_, inner, moved, stepped, same, disks⟩
  · refine mirrors.rest (filterMap_set_eq present ?_) (congrFun disks path)
    rw [later, runs, same]
  · by_cases own : submission.task.job.savePath = path
    · subst own
      rw [if_pos rfl] at runs later
      obtain ⟨active, listed⟩ := mirrors.single (List.mem_of_getElem? present) runs
      obtain ⟨disk, _⟩ := session
      obtain ⟨stored, _⟩ := mirrors
      dsimp only at stored active
      subst stored active
      have followed : (downloads Text io hasher).session
          ⟨queue.store.disks submission.task.job.savePath,
            some (⟨submission.task.job.task, cfg⟩, process.download)⟩ (.step inner) =
          some ⟨moved.1, some (⟨submission.task.job.task, cfg⟩, moved.2)⟩ := by
        simp only [Program.session, downloads, stepped, Option.map_some]
      refine ⟨_, Reaches.single _ trivial followed, ?_, ?_⟩
      · dsimp only
        rw [disks]
        exact (if_pos rfl).symm
      · exact (filterMap_set_single present runs listed).trans (by rw [later, same])
    · rw [if_neg own] at runs later
      refine mirrors.rest (filterMap_set_eq present (later.trans runs.symm)) ?_
      dsimp only
      rw [disks]
      exact if_neg (Ne.symm own)

/-- The session of a save path follows each step of the queue. -/
theorem mirrored (move : QueueMove config (reporting Text cfg io hasher) queue act after) (sound : queue.Sound config)
    (settled : ∀ submission ∈ queue.submissions, submission.Settled) (apart : queue.Apart resolve act)
    (mirrors : queue.Mirrors cfg path session) :
    ∃ next, Reaches (downloads Text io hasher).session (fun _ _ => True) session next ∧
      after.Mirrors cfg path next := by
  have unmoved : ∀ {place : Nat} {old new : Submission Reporting SavedTask Nat},
      queue.submissions[place]? = some old → Submission.running cfg path old = none →
      Submission.running cfg path new = none →
        (queue.submissions.set place new).filterMap (Submission.running cfg path) = queue.runningOn cfg path :=
    fun present before later => filterMap_set_eq present (later.trans before.symm)
  cases move with
  | submitted id job held =>
      refine mirrors.rest ?_ rfl
      exact List.filterMap_append.trans (List.append_nil _)
  | inserted place submission present at_phase | sent place submission present at_phase
  | refused place submission present at_phase | gaveUp place submission present at_phase =>
      exact mirrors.rest (unmoved present (by simp only [Submission.running, at_phase]) rfl) rfl
  | shut | dropped | ordered | drained => exact mirrors.rest rfl rfl
  | received place rest submission present running next =>
      have at_phase := sound.posted place submission (next ▸ List.mem_cons_self) present
      exact mirrors.rest (unmoved present (by simp only [Submission.running, at_phase]) rfl) rfl
  | exited =>
      refine mirrors.rest ?_ rfl
      have blind : Submission.running cfg path ∘ Submission.abandon = Submission.running cfg path :=
        funext fun _ => Submission.running_abandon path
      exact List.filterMap_map.trans (by rw [blind]; rfl)
  | acquired place submission process present at_phase free begun =>
      exact mirrored_acquired mirrors apart present at_phase begun
  | stepped place label submission process next present at_process taken =>
      rcases (settled submission (List.mem_of_getElem? present)).process at_process with at_phase | ⟨result, at_pc⟩
      · exact mirrored_stepped mirrors present at_phase taken
      · have stuck : Reporting.step cfg io hasher submission.task (queue.store, process) label = none :=
          Reporting.returned_stuck at_pc
        cases stuck.symm.trans taken
  | replied place submission process result present at_phase returned =>
      by_cases own : submission.task.job.savePath = path
      · have member := List.mem_of_getElem? present
        have runs : Submission.running cfg path submission =
            some (⟨submission.task.job.task, cfg⟩, process.download) := by
          simp only [Submission.running, at_phase]
          exact if_pos own
        obtain ⟨active, listed⟩ := mirrors.single member runs
        have ended : process.download.outcome = some result :=
          (settled submission member process (by rw [at_phase]; rfl)).1 result
            ((Reporting.outcome_iff process result).mp returned)
        obtain ⟨disk, _⟩ := session
        obtain ⟨stored, _⟩ := mirrors
        dsimp only at stored active
        subst active
        have finished : (downloads Text io hasher).session
            ⟨disk, some (⟨submission.task.job.task, cfg⟩, process.download)⟩ .finish = some ⟨disk, none⟩ := by
          have some_ : (Download.outcome process.download).isSome = true := by rw [ended]; rfl
          simp only [Program.session, downloads, some_, if_true]
        exact ⟨_, Reaches.single _ trivial finished, stored, filterMap_set_single present runs listed⟩
      · have runs : Submission.running cfg path submission = none := by
          simp only [Submission.running, at_phase]
          exact if_neg own
        exact mirrors.rest (unmoved present runs rfl) rfl
  | cleaned place submission left present at_phase =>
      refine mirrors.rest (unmoved present (by simp only [Submission.running, at_phase]) ?_) rfl
      cases left <;> rfl
  | released place submission left present at_phase =>
      exact mirrors.rest (unmoved present (by simp only [Submission.running, at_phase]) rfl) rfl
  | cancelled act chosen asked =>
      have told := Queue.runningOn_cancelAt cfg io hasher path queue chosen
      rw [mirrors.active] at told
      obtain ⟨disk, active⟩ := session
      cases active with
      | none =>
          have none_ := List.forall₂_nil_left_iff.mp told
          exact ⟨⟨disk, none⟩, .refl _, mirrors.store, none_⟩
      | some call =>
          obtain ⟨next, rest, turned, nothing, whole⟩ := List.forall₂_cons_left_iff.mp told
          obtain rfl := List.forall₂_nil_left_iff.mp nothing
          rcases turned with rfl | rfl
          · exact ⟨⟨disk, some next⟩, .refl _, mirrors.store, whole⟩
          · have cancelled : (downloads Text io hasher).session ⟨disk, some call⟩ (.step call.2.cancelEvent) =
                some ⟨disk, some (call.1, call.2.cancelNow)⟩ := by
              simp only [Program.session, downloads, Download.step_cancel, Option.map_some]
            exact ⟨_, Reaches.single _ trivial cancelled, mirrors.store, whole⟩

end QueueMove

/-- These facts tie a queue to the session of a save path. -/
structure Queue.Followed (config : QueueConfig) (cfg : DownloaderConfig) (path : String)
    (queue : Queue (ReportStore Text) Reporting SavedTask Nat)
    (session : Session (Disk Text) Download DownloadCall) : Prop where
  sound : queue.Sound config
  settled : ∀ submission ∈ queue.submissions, submission.Settled
  mirrors : queue.Mirrors cfg path session

theorem Queue.run_followed {config : QueueConfig} (path : String) {store : ReportStore Text}
    {acts : List (QueueAct SavedTask ReportingEvent)} {queue : Queue (ReportStore Text) Reporting SavedTask Nat}
    (run : Run (Queue.step config (reporting Text cfg io hasher)) (Queue.Apart resolve) (Queue.new config store)
      acts queue) :
    ∃ session, Reaches (downloads Text io hasher).session (fun _ _ => True) ⟨store.disks path, none⟩ session ∧
      Queue.Followed config cfg path queue session := by
  refine run.followed ?_ ⟨Queue.new_sound config store, ?_, rfl, rfl⟩
  · intro before act after session held apart taken
    have move := Queue.step_move taken
    obtain ⟨next, reached, mirrors⟩ := move.mirrored held.sound held.settled apart held.mirrors
    exact ⟨next, reached, move.sound held.sound, move.settled held.settled, mirrors⟩
  · intro submission member
    cases member

/-- What the queue does on one save path is a session of downloads there, whatever its other tasks do elsewhere. -/
theorem Queue.follows_sessions (config : QueueConfig) (cfg : DownloaderConfig) (io : FileIo) (hasher : Hasher)
    (resolve : String → Place File) (path : String) (store : ReportStore Text)
    (acts : List (QueueAct SavedTask ReportingEvent))
    (queue : Queue (ReportStore Text) Reporting SavedTask Nat)
    (run : Run (Queue.step config (reporting Text cfg io hasher)) (Queue.Apart resolve) (Queue.new config store)
      acts queue) :
    ∃ session, Reaches (downloads Text io hasher).session (fun _ _ => True) ⟨store.disks path, none⟩ session ∧
      queue.Mirrors cfg path session := by
  obtain ⟨session, reached, followed⟩ := Queue.run_followed path run
  exact ⟨session, reached, followed.mirrors⟩

instance {Text File : Type} [DecidableEq File] (resolve : String → Place File)
    (queue : Queue (ReportStore Text) Reporting SavedTask Nat) (act : QueueAct SavedTask ReportingEvent) :
    Decidable (queue.Apart resolve act) := by
  induction act using QueueAct.casesOn with
  | submit id job =>
      exact inferInstanceAs (Decidable (∀ other ∈ queue.submissions, other.task.job.savePath = job.savePath ∨
        ∀ path ∈ callPaths job.savePath, ∀ otherPath ∈ callPaths other.task.job.savePath,
          (resolve path).Apart (resolve otherPath)))
  | acquire place =>
      exact inferInstanceAs (Decidable (∀ submission ∈ queue.submissions[place]?, ∀ other ∈ queue.submissions,
        other.phase.inside = true → other.task.job.savePath ≠ submission.task.job.savePath))
  | _ => exact .isTrue trivial

/-- The caller of this task knows the digest of its file. -/
def checkedTask : SavedTask := ⟨"f", { url := "u", expectedChecksum := some (.md5 (.replicate 16 0)) }⟩

/-- Each path names a file of its own in one directory. -/
def flatPlace (path : String) : Place String := ⟨path, []⟩

/-- The task waits while another one fails, and then it fetches a file of one byte. A third task saves elsewhere. -/
def checkedActs : List (QueueAct SavedTask ReportingEvent) :=
  submitActs 0 0 ++ [.submit 0 checkedTask, .receive, .insert 1, .send 1, .submit 2 ⟨"g", { url := "" }⟩, .receive] ++
    failActs 0 ++ [.acquire 1] ++
    ([.enter, .inner (.parsed true), .inner (.prepared true),
      .inner (.probed (.ok ⟨"u", some 1, fits_one, false, none, none, none⟩)), .inner (.single .check),
      .inner (.single (.stat true)), .inner (.single (.reply (some ⟨200, none, none, [5]⟩))),
      .inner (.single (.created true)), .inner (.single (.opened true)), .tick, .inner (.single (.chunk 1)),
      .inner (.single .wrote), .inner (.single .streamEnd), .stop, .inner (.single (.closed true)),
      .inner (.single (.measured true)), .inner .join, .inner (.measured true), .inner (.hashed true), .finish] : List ReportingEvent).map (.step 1)

theorem checkedActs_run : Run (Queue.step ⟨2, 1⟩ (reporting DownloadState {} .through anyHasher))
    (Queue.Apart flatPlace) (emptyQueue ⟨2, 1⟩) checkedActs ((queueRun ⟨2, 1⟩ checkedActs).get rfl) :=
  run_of_replay (by decide +kernel) (Option.some_get _).symm

/-- A session of the path follows both tasks. -/
theorem Queue.follows_sessions_checked : ∃ session,
    Reaches (downloads DownloadState .through anyHasher).session (fun _ _ => True) ⟨⟨none, none⟩, none⟩ session ∧
      Queue.Mirrors {} "f" ((queueRun ⟨2, 1⟩ checkedActs).get rfl) session :=
  Queue.follows_sessions ⟨2, 1⟩ {} .through anyHasher flatPlace "f" ⟨fun _ => ⟨none, none⟩, []⟩ checkedActs _
    checkedActs_run

/-- A session invariant of the downloads holds of each task that runs in the queue. -/
theorem Queue.keeps_running {config : QueueConfig} {path : String} {store : ReportStore Text}
    {acts : List (QueueAct SavedTask ReportingEvent)} {queue : Queue (ReportStore Text) Reporting SavedTask Nat}
    {idle : Disk Text → Prop} {busy : DownloadCall → Disk Text → Download → Prop}
    (keeps : (downloads Text io hasher).Keeps (fun _ _ => True) idle busy) (initial : idle (store.disks path))
    (run : Run (Queue.step config (reporting Text cfg io hasher)) (Queue.Apart resolve) (Queue.new config store)
      acts queue)
    {submission : Submission Reporting SavedTask Nat} {process : Reporting} (member : submission ∈ queue.submissions)
    (at_phase : submission.phase = .running process) (own : submission.task.job.savePath = path) :
    busy ⟨submission.task.job.task, cfg⟩ (queue.store.disks path) process.download := by
  obtain ⟨session, ⟨moves, taken⟩, followed⟩ := Queue.run_followed path run
  have mirrors := followed.mirrors
  have runs : Submission.running cfg path submission = some (⟨submission.task.job.task, cfg⟩, process.download) := by
    simp only [Submission.running, at_phase]
    exact if_pos own
  obtain ⟨disk, _⟩ := session
  obtain ⟨active, _⟩ := mirrors.single member runs
  have stored := mirrors.store
  dsimp only at active stored
  subst active stored
  exact keeps.invariant taken initial

/-- A successful call has left a file of the size that it returns, and the digest of the caller is right. -/
def Download.Checked (hasher : Hasher) (call : DownloadCall) (disk : Disk Text) (download : Download) : Prop :=
  match download.pc with
  | .verifying size expected =>
      disk.data.isSome = true ∧ disk.length = size ∧ ∀ wanted ∈ call.task.expectedChecksum, wanted = expected
  | .returned (.ok size) =>
      disk.data.isSome = true ∧ disk.length = size ∧
        ∀ wanted ∈ call.task.expectedChecksum, hasher.verifyFile disk.contents wanted = .ok ()
  | _ => True

/-- The checks of the calls are kept by every session. -/
theorem downloads_checked (io : FileIo) (hasher : Hasher) :
    (downloads Text io hasher).Keeps (fun _ _ => True) (fun _ => True) (Download.Checked hasher) where
  start _ _ _ _ := trivial
  step call disk download event next held _ taken := by
    have move := Download.step_move taken
    rcases next with ⟨after, next⟩
    dsimp only at move ⊢
    cases move with
    | cancelled => exact held
    | advanced _ pc early => rcases early with rfl | rfl <;> trivial
    | probed info =>
        unfold Download.Checked
        rcases Download.onProbed_cases call download info with
          at_pc | ⟨_, job, multi, _, _, at_pc⟩ | ⟨_, job, _, at_pc⟩ <;> rw [at_pc] <;> trivial
    | measured info at_pc present =>
        unfold Download.onMeasured
        split
        · trivial
        · split
          · rename_i expected in_force
            refine ⟨present, rfl, fun wanted asked => ?_⟩
            rw [DownloadCall.expectedChecksum, Option.mem_def.mp asked] at in_force
            exact Option.some.inj in_force
          · rename_i none_
            refine ⟨present, rfl, fun wanted asked => ?_⟩
            rw [DownloadCall.expectedChecksum, Option.mem_def.mp asked] at none_
            cases none_
    | verified size expected readable at_pc matching =>
        simp only [Download.Checked, at_pc] at held
        obtain ⟨present, sized, wanted⟩ := held
        refine ⟨present, sized, fun digest asked => ?_⟩
        cases readable with
        | true => exact wanted digest asked ▸ matching
        | false => cases matching
    | _ => trivial
  finish _ _ _ _ _ _ _ := trivial
  kill _ _ _ _ _ := trivial

/-- When a task answers with success, its file is there and the digest of its caller is right. -/
theorem Queue.verified_replies (config : QueueConfig) (cfg : DownloaderConfig) (hasher : Hasher)
    (resolve : String → Place File)
    (store : ReportStore Text) (acts : List (QueueAct SavedTask ReportingEvent))
    (queue after : Queue (ReportStore Text) Reporting SavedTask Nat) (place size : Nat)
    (submission : Submission Reporting SavedTask Nat)
    (run : Run (Queue.step config (reporting Text cfg .through hasher)) (Queue.Apart resolve) (Queue.new config store)
      acts queue)
    (taken : Queue.step config (reporting Text cfg .through hasher) queue (.reply place) = some after)
    (present : after.submissions[place]? = some submission) (success : .ok size ∈ submission.replies) :
    (after.store.disks submission.task.job.savePath).data.isSome = true ∧
      (after.store.disks submission.task.job.savePath).length = size ∧
      ∀ expected ∈ submission.task.job.task.expectedChecksum,
        hasher.verifyFile (after.store.disks submission.task.job.savePath).contents expected = .ok () := by
  have move := Queue.step_move taken
  cases move with
  | replied place old process result found at_phase returned =>
      obtain ⟨session, _, followed⟩ : ∃ session, _ ∧
          Queue.Followed config cfg old.task.job.savePath queue session := Queue.run_followed _ run
      have member := List.mem_of_getElem? found
      have silent : old.replies = [] := by
        have counted := followed.sound.replies old member
        rw [at_phase] at counted
        exact List.length_eq_zero_iff.mp counted
      obtain ⟨inside, _⟩ := List.getElem?_eq_some_iff.mp found
      have same := Option.some.inj ((List.getElem?_set_self inside).symm.trans present)
      subst same
      rw [silent, List.nil_append, List.mem_singleton] at success
      subst success
      have ended : process.download.outcome = some (.ok size) :=
        (followed.settled old member process (by rw [at_phase]; rfl)).1 _
          ((Reporting.outcome_iff process _).mp returned)
      have checked := Queue.keeps_running (downloads_checked .through hasher) trivial run member at_phase rfl
      have at_pc := (Download.outcome_iff process.download _).mp ended
      simp only [Download.Checked, at_pc] at checked
      exact checked
  | cancelled _ _ asked => cases asked

def checkedAfter : Queue (ReportStore DownloadState) Reporting SavedTask Nat :=
  (queueRun ⟨2, 1⟩ (checkedActs ++ [.reply 1])).get rfl

/-- The task that waited answers with the size of its file, and the digest of its caller is right. -/
theorem Queue.verified_replies_checked : (checkedAfter.store.disks "f").length = 1 ∧
    anyHasher.verifyFile (checkedAfter.store.disks "f").contents (.md5 (.replicate 16 0)) = .ok () := by
  have taken : Queue.step ⟨2, 1⟩ (reporting DownloadState {} .through anyHasher)
      ((queueRun ⟨2, 1⟩ checkedActs).get rfl) (.reply 1) = some checkedAfter := rfl
  have present : checkedAfter.submissions[1]?.isSome = true := by decide +kernel
  have checked := Queue.verified_replies ⟨2, 1⟩ {} anyHasher flatPlace ⟨fun _ => ⟨none, none⟩, []⟩ checkedActs _ _ 1 1 _
    checkedActs_run taken (Option.some_get present).symm (List.mem_singleton_self _)
  exact ⟨checked.2.1, checked.2.2 _ rfl⟩

end FastDownloader
