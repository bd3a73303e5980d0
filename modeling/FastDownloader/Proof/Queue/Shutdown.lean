/-
This file proves which accepted tasks are lost when the dispatcher exits.
-/

import Mathlib.Data.List.TakeWhile
import FastDownloader.Proof.Queue.Lifecycle

namespace FastDownloader

open Foundation

variable {Store Process Job Label Value : Type*}

/-- The dispatcher has taken the message of the submission and has spawned its body. -/
def TaskPhase.spawned : TaskPhase Process → Bool
  | .waiting | .running _ | .cleaning _ | .releasing _ | .finished _ => true
  | _ => false

/-- The message of the submission was dropped with the receiver. -/
def TaskPhase.lost : TaskPhase Process → Bool
  | .dropped => true
  | _ => false

theorem TaskPhase.blind_lost : TaskPhase.Blind (@TaskPhase.lost Process) :=
  blind_of (fun _ _ => rfl) (fun _ _ => rfl) (fun _ _ => rfl) fun _ _ => rfl

theorem SubmissionMove.lost_eq {program : TaskProgram Store Process Job Label Value} {act : QueueAct Job Label}
    {place : Nat} {old new : Submission Process Job Value} (move : SubmissionMove program place old act new)
    (stays : act ≠ .exit) : new.phase.lost = old.phase.lost := by
  cases move with
  | stayed => rfl
  | abandoned => exact absurd rfl stays
  | inserted at_phase | sent at_phase | refused at_phase | received at_phase | acquired _ at_phase
  | gaveUp at_phase | replied _ _ at_phase | released _ at_phase => rw [at_phase]; rfl
  | stepped => exact TaskPhase.blind_lost _ _
  | cleaned left at_phase => rw [at_phase]; cases left <;> rfl
  | cancelled => exact Submission.cancelNow_phase TaskPhase.blind_lost _

namespace Queue

variable {config : QueueConfig} {program : TaskProgram Store Process Job Label Value}
  {queue after : Queue Store Process Job Value} {act : QueueAct Job Label}

/-- A message is sent to a dispatcher that runs and that no order to shut down is on its way to. -/
def Heard (queue : Queue Store Process Job Value) : QueueAct Job Label → Prop
  | .send _ => queue.dispatcher = .running ∧ .shutdown ∉ queue.channel
  | _ => True

/-- Every accepted task has been spawned or has a result. -/
def NoneLost (queue : Queue Store Process Job Value) : Prop :=
  ∀ submission ∈ queue.submissions, submission.phase.accepted = true →
    submission.phase.spawned = true ∨ submission.replies ≠ []

/-- The dispatcher leaves its loop before it comes to these messages. -/
def unheard (queue : Queue Store Process Job Value) : List QueueMsg :=
  match queue.dispatcher with
  | .running => queue.channel.dropWhile (· ≠ .shutdown)
  | _ => queue.channel

/-- A task is dropped, or its message will be. -/
def Doomed (queue : Queue Store Process Job Value) : Prop :=
  (∃ place, .submit place ∈ queue.unheard) ∨ ∃ submission ∈ queue.submissions, submission.phase.lost = true

end Queue

/-- A message lies behind an order to shut down exactly when the channel is searched from the order on. -/
theorem dropWhile_append_shutdown (channel more : List QueueMsg) (ordered : .shutdown ∈ channel) :
    (channel ++ more).dropWhile (· ≠ .shutdown) = channel.dropWhile (· ≠ .shutdown) ++ more := by
  rw [List.dropWhile_append, if_neg]
  intro empty
  rw [List.isEmpty_iff, List.dropWhile_eq_nil_iff] at empty
  simpa using empty _ ordered

theorem dropWhile_no_shutdown (channel more : List QueueMsg) (open_ : .shutdown ∉ channel) :
    (channel ++ more).dropWhile (· ≠ .shutdown) = more.dropWhile (· ≠ .shutdown) := by
  rw [List.dropWhile_append, if_pos]
  rw [List.isEmpty_iff, List.dropWhile_eq_nil_iff]
  intro message member
  rw [decide_eq_true_iff]
  rintro rfl
  exact open_ member

namespace QueueMove

variable {config : QueueConfig} {program : TaskProgram Store Process Job Label Value}
  {queue after : Queue Store Process Job Value} {act : QueueAct Job Label}

/-- A submission is dropped only when the dispatcher exits. -/
theorem lost_iff (move : QueueMove config program queue act after) (posted : queue.Posted) (stays : act ≠ .exit) :
    (∃ submission ∈ after.submissions, submission.phase.lost = true) ↔
      ∃ submission ∈ queue.submissions, submission.phase.lost = true :=
  move.exists_iff posted TaskPhase.lost rfl fun turn => turn.lost_eq stays

/-- The other acts leave the messages that nobody will hear as they are. -/
theorem unheard_iff (move : QueueMove config program queue act after) (quiet : act.posts = false) (place : Nat) :
    .submit place ∈ after.unheard ↔ .submit place ∈ queue.unheard := by
  cases move with
  | sent | received | ordered | drained | exited => cases quiet
  | shut held listening room =>
      unfold Queue.unheard
      cases queue.dispatcher with
      | running =>
          dsimp only
          by_cases ordered : .shutdown ∈ queue.channel
          · rw [dropWhile_append_shutdown _ _ ordered]
            simp
          · rw [dropWhile_no_shutdown _ _ ordered, ← List.append_nil queue.channel,
              dropWhile_no_shutdown _ _ ordered]
            simp
      | exiting | exited => simp
  | _ => exact Iff.rfl

/-- A message is unheard when the dispatcher does not run or an order to shut down is in front of it. -/
theorem doomed_send {place : Nat} (move : QueueMove config program queue (.send place) after)
    (sound : queue.Sound config) :
    after.Doomed ↔ queue.Doomed ∨ ¬ queue.Heard (.send place : QueueAct Job Label) := by
  have lost := move.lost_iff sound.posted (by simp)
  unfold Queue.Doomed
  rw [lost]
  cases move with
  | cancelled _ _ asked => cases asked
  | sent _ submission present at_phase listening room =>
      unfold Queue.unheard Queue.Heard
      cases state : queue.dispatcher with
      | exited => exact absurd state listening
      | exiting => simp [Queue.put, state]
      | running =>
          simp only [Queue.put, state]
          by_cases ordered : .shutdown ∈ queue.channel
          · rw [dropWhile_append_shutdown _ _ ordered]
            simp [ordered]
          · rw [dropWhile_no_shutdown _ _ ordered]
            have silent := dropWhile_no_shutdown queue.channel [] ordered
            rw [List.append_nil] at silent
            rw [silent]
            simp [ordered]

/-- The dispatcher takes a message from the front, and it leaves its loop with the unheard ones behind. -/
theorem doomed_receive (move : QueueMove config program queue .receive after) (sound : queue.Sound config) :
    after.Doomed ↔ queue.Doomed := by
  have lost := move.lost_iff sound.posted (by simp)
  unfold Queue.Doomed
  rw [lost]
  cases move with
  | cancelled _ _ asked => cases asked
  | received place rest submission present running next => simp [Queue.unheard, Queue.put, running, next]
  | ordered rest running next => simp [Queue.unheard, running, next]
  | drained running empty gone => simp [Queue.unheard, running, empty]

/-- The receiver drops exactly the messages that are left. -/
theorem doomed_exit (move : QueueMove config program queue .exit after) (sound : queue.Sound config) :
    after.Doomed ↔ queue.Doomed := by
  cases move with
  | cancelled _ _ asked => cases asked
  | exited exiting =>
      have waiting : queue.unheard = queue.channel := by rw [Queue.unheard, exiting]
      unfold Queue.Doomed
      rw [waiting]
      constructor
      · rintro (⟨_, member⟩ | ⟨left, member, lost⟩)
        · cases member
        · obtain ⟨old, present, rfl⟩ := List.mem_map.mp member
          unfold Submission.abandon at lost
          split at lost
          · rename_i at_phase
            obtain ⟨place, found⟩ := List.getElem?_of_mem present
            exact Or.inl ⟨place, sound.listed found at_phase⟩
          · exact Or.inr ⟨old, present, lost⟩
      · rintro (⟨place, listed⟩ | ⟨old, member, lost⟩)
        · obtain ⟨old, present, at_phase⟩ := sound.queued listed
          refine Or.inr ⟨old.abandon, List.mem_map_of_mem (List.mem_of_getElem? present), ?_⟩
          rw [Submission.abandon, at_phase]
          rfl
        · refine Or.inr ⟨old.abandon, List.mem_map_of_mem member, ?_⟩
          unfold Submission.abandon
          split
          · rfl
          · exact lost

/-- A task is doomed by exactly the sends that nobody will hear. -/
theorem doomed_iff (move : QueueMove config program queue act after) (sound : queue.Sound config) :
    after.Doomed ↔ queue.Doomed ∨ ¬ queue.Heard act := by
  cases quiet : act.posts with
  | false =>
      have heard : queue.Heard act := by
        cases act with
        | send => cases quiet
        | _ => trivial
      have stays : act ≠ .exit := by rintro rfl; cases quiet
      rw [or_iff_left (not_not_intro heard)]
      unfold Queue.Doomed
      rw [move.lost_iff sound.posted stays]
      simp only [move.unheard_iff quiet]
  | true =>
      cases act with
      | send place => exact move.doomed_send sound
      | receive =>
          rw [move.doomed_receive sound]
          exact (or_iff_left (not_not_intro trivial)).symm
      | exit =>
          rw [move.doomed_exit sound]
          exact (or_iff_left (not_not_intro trivial)).symm
      | _ => cases quiet

end QueueMove

namespace Queue

variable {config : QueueConfig} {program : TaskProgram Store Process Job Label Value}
  {queue : Queue Store Process Job Value}

theorem Sound.safe_iff (sound : queue.Sound config) (exited : queue.dispatcher = .exited) :
    queue.NoneLost ↔ ¬ queue.Doomed := by
  have silent : ∀ place, .submit place ∉ queue.unheard := by
    intro place
    rw [unheard, exited, sound.closed exited]
    exact List.not_mem_nil
  have lost_only : queue.Doomed ↔ ∃ submission ∈ queue.submissions, submission.phase.lost = true :=
    or_iff_right fun ⟨place, member⟩ => silent place member
  rw [lost_only]
  constructor
  · rintro none ⟨submission, member, lost⟩
    have unanswered := sound.replies submission member
    have kept := none submission member
    cases at_phase : submission.phase with
    | dropped =>
        rw [at_phase] at unanswered kept
        rcases kept rfl with spawned | answered
        · cases spawned
        · exact answered (List.eq_nil_of_length_eq_zero unanswered)
    | _ => rw [at_phase] at lost; cases lost
  · intro safe submission member accepted
    cases at_phase : submission.phase with
    | locking | sending | refused => rw [at_phase] at accepted; cases accepted
    | queued =>
        obtain ⟨place, found⟩ := List.getElem?_of_mem member
        have listed := sound.listed found at_phase
        rw [sound.closed exited] at listed
        cases listed
    | dropped => exact absurd ⟨submission, member, by rw [at_phase]; rfl⟩ safe
    | _ => exact Or.inl rfl

/-- Once the dispatcher has exited, no accepted task is lost exactly when every message was sent to a dispatcher that
runs with no order to shut down on its way. -/
theorem noneLost_iff (config : QueueConfig) (program : TaskProgram Store Process Job Label Value) (store : Store)
    (acts : List (QueueAct Job Label)) (queue : Queue Store Process Job Value)
    (run : Run (Queue.step config program) (fun _ _ => True) (Queue.new config store) acts queue)
    (exited : queue.dispatcher = .exited) :
    queue.NoneLost ↔ Admitted (Queue.step config program) Queue.Heard (Queue.new config store) acts := by
  have raised : queue.Doomed ↔ (Queue.new config store : Queue Store Process Job Value).Doomed ∨
      ¬ Admitted (Queue.step config program) Queue.Heard (Queue.new config store) acts :=
    run.raised_iff (Queue.Sound config) Queue.Doomed
      (fun _ _ _ sound _ taken => ⟨(step_move taken).sound sound, (step_move taken).doomed_iff sound⟩)
      (Queue.new_sound config store)
  have fresh : ¬ (Queue.new config store : Queue Store Process Job Value).Doomed := by
    rintro (⟨_, member⟩ | ⟨_, member, _⟩) <;> cases member
  rw [(run_sound run (Queue.new_sound config store)).safe_iff exited, raised, or_iff_right fresh, not_not]

instance (queue : Queue Store Process Job Value) (act : QueueAct Job Label) : Decidable (queue.Heard act) := by
  induction act using QueueAct.casesOn with
  | send place => exact inferInstanceAs (Decidable (queue.dispatcher = .running ∧ .shutdown ∉ queue.channel))
  | _ => exact .isTrue trivial

/-- The order to shut down comes after the message of the task. -/
def heardActs : List (QueueAct SavedTask ReportingEvent) :=
  submitActs 0 0 ++ [.shutdown, .receive, .receive, .exit]

theorem noneLost_iff_heard : ((queueRun ⟨1, 2⟩ heardActs).get rfl).NoneLost := by
  have run : Run (Queue.step ⟨1, 2⟩ (reporting DownloadState {} .through anyHasher)) (fun _ _ => True)
      (emptyQueue ⟨1, 2⟩) heardActs ((queueRun ⟨1, 2⟩ heardActs).get rfl) :=
    run_of_replay (by decide +kernel) (Option.some_get _).symm
  exact (noneLost_iff _ _ _ _ _ run rfl).mpr (by decide +kernel)

/-- The order of another clone comes between the token and the message of the task. -/
def overtakenActs : List (QueueAct SavedTask ReportingEvent) :=
  [.submit 0 badTask, .insert 0, .shutdown, .send 0, .receive, .exit]

/-- The call has returned a handle, and the task is dropped without a result. -/
theorem noneLost_not_overtaken :
    ¬ ∀ acts queue, Run (Queue.step ⟨1, 2⟩ (reporting DownloadState {} .through anyHasher)) (fun _ _ => True)
      (emptyQueue ⟨1, 2⟩) acts queue → queue.dispatcher = .exited → queue.NoneLost := by
  intro always
  have run : Run (Queue.step ⟨1, 2⟩ (reporting DownloadState {} .through anyHasher)) (fun _ _ => True)
      (emptyQueue ⟨1, 2⟩) overtakenActs ((queueRun ⟨1, 2⟩ overtakenActs).get rfl) :=
    run_of_replay (by decide +kernel) (Option.some_get _).symm
  rcases always _ _ run rfl _ (List.mem_singleton_self _) rfl with spawned | answered
  · cases spawned
  · exact answered rfl

end Queue

end FastDownloader
