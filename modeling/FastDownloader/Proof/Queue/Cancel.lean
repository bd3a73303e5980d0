/-
This file proves that a live task is found by its id when no id is inserted again before its clean-up.
-/

import FastDownloader.Proof.Queue.Lifecycle

namespace FastDownloader

open Foundation

variable {Store Process Job Label Value : Type*}

/-- The submission has entered its token and may still be cancelled or clean up. -/
def TaskPhase.owning (phase : TaskPhase Process) : Bool := phase.entered && !phase.stranded

theorem TaskPhase.blind_owning : TaskPhase.Blind (@TaskPhase.owning Process) :=
  blind_of (fun _ _ => rfl) (fun _ _ => rfl) (fun _ _ => rfl) fun _ _ => rfl

namespace Queue

variable {config : QueueConfig} {program : TaskProgram Store Process Job Label Value}
  {queue after : Queue Store Process Job Value} {act : QueueAct Job Label}

/-- An insertion finds no other submission of its id between the insertion of its token and its clean-up. -/
def Unclaimed (queue : Queue Store Process Job Value) : QueueAct Job Label → Prop
  | .insert place => ∀ owner ∈ queue.submissions[place]?, ∀ submission ∈ queue.submissions,
      submission.task.id = owner.task.id → submission.phase.owning = false
  | _ => True

/-- A client chooses an id only when every task of this id is resolved. -/
def Polite (queue : Queue Store Process Job Value) : QueueAct Job Label → Prop
  | .submit id _ => id ≠ 0 →
      ∀ submission ∈ queue.submissions, submission.task.id = id → submission.resolved = true
  | _ => True

/-- Every accepted task that is not resolved is found by its id, and a cancellation of everything meets it too. -/
def Cancellable (program : TaskProgram Store Process Job Label Value) (queue : Queue Store Process Job Value) : Prop :=
  ∀ (place : Nat) (submission : Submission Process Job Value), queue.submissions[place]? = some submission →
    submission.phase.accepted = true → submission.resolved = false →
      (queue.cancel program submission.task.id).1 = .ok () ∧
      (queue.cancel program submission.task.id).2.submissions[place]? = some (submission.cancelNow program) ∧
      (queue.cancelAll program).submissions[place]? = some (submission.cancelNow program)

/-- A token that is in use is the entry of its id. -/
def Listed (queue : Queue Store Process Job Value) : Prop :=
  ∀ (place : Nat) (submission : Submission Process Job Value), queue.submissions[place]? = some submission →
    submission.phase.owning = true → queue.cancels submission.task.id = some place

/-- The call finds the submission whose token is the entry of the id. -/
theorem cancel_of_entry {place : Nat} {submission : Submission Process Job Value}
    (present : queue.submissions[place]? = some submission)
    (entry : queue.cancels submission.task.id = some place) :
    queue.cancel program submission.task.id = (.ok (), queue.put place (submission.cancelNow program)) := by
  have found : queue.lookup submission.task.id = some (place, submission) := by
    rw [lookup, entry, Option.bind_some, present, Option.map_some]
  unfold cancel
  rw [found]

/-- A body without a result has not begun its clean-up. -/
theorem Sound.owning (sound : queue.Sound config) {submission : Submission Process Job Value}
    (member : submission ∈ queue.submissions) (accepted : submission.phase.accepted = true)
    (unresolved : submission.resolved = false) : submission.phase.owning = true := by
  have results := sound.replies submission member
  rw [Submission.resolved, Bool.or_eq_false_iff, Bool.not_eq_false'] at unresolved
  rw [List.isEmpty_iff.mp unresolved.1] at results
  cases at_phase : submission.phase with
  | queued | waiting | running | cleaning => rfl
  | locking | sending | refused => rw [at_phase] at accepted; cases accepted
  | releasing | finished => rw [at_phase] at results; cases results
  | dropped => rw [at_phase] at unresolved; cases unresolved.2

theorem Listed.cancellable (listed : queue.Listed) (sound : queue.Sound config) : queue.Cancellable program := by
  intro place submission present accepted unresolved
  have owning := sound.owning (List.mem_of_getElem? present) accepted unresolved
  have entry := listed place submission present owning
  obtain ⟨inside, _⟩ := List.getElem?_eq_some_iff.mp present
  rw [cancel_of_entry present entry]
  refine ⟨rfl, List.getElem?_set_self inside, ?_⟩
  simp only [cancelAll, List.getElem?_mapIdx, present, Option.map_some, Queue.listed, entry, decide_true, if_true]

end Queue

/-- Only an insertion brings a token into use. -/
theorem SubmissionMove.owning {program : TaskProgram Store Process Job Label Value} {act : QueueAct Job Label}
    {place : Nat} {old new : Submission Process Job Value} (move : SubmissionMove program place old act new)
    (quiet : ∀ other, act ≠ .insert other) (now : new.phase.owning = true) : old.phase.owning = true := by
  cases move with
  | stayed => exact now
  | inserted => exact absurd rfl (quiet place)
  | sent at_phase | received at_phase | acquired _ at_phase | gaveUp at_phase | replied _ _ at_phase =>
      rw [at_phase]
      rfl
  | refused | abandoned | released => cases now
  | stepped => exact (TaskPhase.blind_owning _ _).symm.trans now
  | cleaned left => cases left <;> cases now
  | cancelled => exact (Submission.cancelNow_phase TaskPhase.blind_owning _).symm.trans now

namespace QueueMove

variable {config : QueueConfig} {program : TaskProgram Store Process Job Label Value}
  {queue after : Queue Store Process Job Value} {act : QueueAct Job Label}

/-- An insertion that finds its id unclaimed takes no entry away, and a clean-up removes only its own entry. -/
theorem listed (move : QueueMove config program queue act after) (sound : queue.Sound config)
    (unclaimed : queue.Unclaimed act) (listed : queue.Listed) : after.Listed := by
  intro place submission found owning
  have kept : after.cancels submission.task.id = queue.cancels submission.task.id →
      (∀ other, act ≠ .insert other) → after.cancels submission.task.id = some place := by
    intro same quiet
    rcases move.origin sound.posted found with ⟨old, present, turn⟩ | ⟨_, _, _, _, rfl⟩
    · rw [same, turn.task]
      exact listed place old present (turn.owning quiet owning)
    · cases owning
  cases move with
  | inserted at_place owner present at_phase =>
      dsimp only [Queue.put] at found ⊢
      by_cases here : at_place = place
      · subst here
        obtain ⟨inside, _⟩ := List.getElem?_eq_some_iff.mp present
        obtain rfl := Option.some.inj ((List.getElem?_set_self inside).symm.trans found)
        exact if_pos rfl
      · rw [List.getElem?_set_ne here] at found
        have apart : submission.task.id ≠ owner.task.id := fun same => by
          cases (unclaimed owner present submission (List.mem_of_getElem? found) same).symm.trans owning
        rw [if_neg apart]
        exact listed place submission found owning
  | cleaned at_place owner left present at_phase =>
      dsimp only [Queue.put] at found ⊢
      have claimed : queue.cancels owner.task.id = some at_place :=
        listed at_place owner present (by rw [at_phase]; rfl)
      by_cases here : at_place = place
      · subst here
        obtain ⟨inside, _⟩ := List.getElem?_eq_some_iff.mp present
        obtain rfl := Option.some.inj ((List.getElem?_set_self inside).symm.trans found)
        cases left <;> cases owning
      · rw [List.getElem?_set_ne here] at found
        have entry := listed place submission found owning
        have apart : submission.task.id ≠ owner.task.id := fun same =>
          here (Option.some.inj (claimed.symm.trans (same ▸ entry)))
        rw [if_neg apart]
        exact entry
  | cancelled _ _ asked => exact kept rfl (by rintro other rfl; cases asked)
  | _ => exact kept rfl nofun

end QueueMove

/-- In every run in which no id is inserted while another task of this id is between its insertion and its clean-up,
every live task can be cancelled at every moment. -/
theorem Queue.stays_cancellable (config : QueueConfig) (program : TaskProgram Store Process Job Label Value)
    (store : Store) (acts : List (QueueAct Job Label)) (queue : Queue Store Process Job Value)
    (run : Run (Queue.step config program) Queue.Unclaimed (Queue.new config store) acts queue) :
    queue.Cancellable program := by
  have held : queue.Sound config ∧ queue.Listed :=
    run.invariant (fun state => state.Sound config ∧ state.Listed)
      (fun before _ _ both unclaimed taken => ⟨(step_move taken).sound both.1,
        (step_move taken).listed both.1 unclaimed both.2⟩)
      ⟨Queue.new_sound config store, fun _ _ present => by cases present⟩
  exact held.2.cancellable held.1

instance {Store Process Job Label Value : Type*} (queue : Queue Store Process Job Value) (act : QueueAct Job Label) :
    Decidable (queue.Unclaimed act) := by
  induction act using QueueAct.casesOn with
  | insert place => exact inferInstanceAs (Decidable (∀ owner ∈ queue.submissions[place]?,
      ∀ submission ∈ queue.submissions, submission.task.id = owner.task.id → submission.phase.owning = false))
  | _ => exact .isTrue trivial

instance {Store Process Job Label Value : Type*} (queue : Queue Store Process Job Value) (act : QueueAct Job Label) :
    Decidable (queue.Polite act) := by
  induction act using QueueAct.casesOn with
  | submit id job => exact inferInstanceAs (Decidable (id ≠ 0 →
      ∀ submission ∈ queue.submissions, submission.task.id = id → submission.resolved = true))
  | _ => exact .isTrue trivial

/-- The id 7 is used again after the body of its first task has left the queue. -/
def reuseActs : List (QueueAct SavedTask ReportingEvent) :=
  submitActs 7 0 ++ [.receive] ++ failActs 0 ++ [.cleanup 0, .release 0] ++ submitActs 7 1

theorem Queue.stays_cancellable_reuse :
    ((queueRun ⟨1, 1⟩ reuseActs).get rfl).Cancellable (reporting DownloadState {} .through anyHasher) := by
  have run : Run (Queue.step ⟨1, 1⟩ (reporting DownloadState {} .through anyHasher)) Queue.Unclaimed
      (emptyQueue ⟨1, 1⟩) reuseActs ((queueRun ⟨1, 1⟩ reuseActs).get rfl) :=
    run_of_replay (by decide +kernel) (Option.some_get _).symm
  exact Queue.stays_cancellable _ _ _ _ _ run

/-- The id 7 is used again as soon as its first result has arrived. The first body removes its entry after that. -/
def hastyActs : List (QueueAct SavedTask ReportingEvent) :=
  submitActs 7 0 ++ [.receive] ++ failActs 0 ++ submitActs 7 1 ++ [.cleanup 0]

/-- The entry of the second task is gone while the task waits in the channel. -/
theorem Queue.not_cancellable_hasty :
    ¬ ∀ acts queue, Run (Queue.step ⟨1, 1⟩ (reporting DownloadState {} .through anyHasher)) Queue.Polite
      (emptyQueue ⟨1, 1⟩) acts queue → queue.Cancellable (reporting DownloadState {} .through anyHasher) := by
  intro always
  have run : Run (Queue.step ⟨1, 1⟩ (reporting DownloadState {} .through anyHasher)) Queue.Polite
      (emptyQueue ⟨1, 1⟩) hastyActs ((queueRun ⟨1, 1⟩ hastyActs).get rfl) :=
    run_of_replay (by decide +kernel) (Option.some_get _).symm
  have found := (always _ _ run 1 _ rfl rfl rfl).1
  have missing : (((queueRun ⟨1, 1⟩ hastyActs).get rfl).cancel (reporting DownloadState {} .through anyHasher) 7).1 =
      .error (.taskNotFound 7) := rfl
  cases missing.symm.trans found

end FastDownloader
