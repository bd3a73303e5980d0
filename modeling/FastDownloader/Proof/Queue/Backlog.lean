/-
This file proves how the backlog of a queue depends on the number of tasks that wait for a slot outside the channel.
-/

import FastDownloader.Proof.Queue.Lifecycle

namespace FastDownloader

open Foundation

variable {Store Process Job Label Value : Type*}

namespace TaskPhase

/-- The task is accepted, and its body is not inside its download yet. -/
def pending : TaskPhase Process → Bool
  | .queued | .waiting => true
  | _ => false

/-- The dispatcher has taken the task out of the channel, and its body has no slot. -/
def waits : TaskPhase Process → Bool
  | .waiting => true
  | _ => false

theorem blind_waits : Blind (@waits Process) :=
  blind_of (fun _ _ => rfl) (fun _ _ => rfl) (fun _ _ => rfl) fun _ _ => rfl

end TaskPhase

namespace Submission

def pending (submission : Submission Process Job Value) : Bool := submission.phase.pending && !submission.cancelled

def waits (submission : Submission Process Job Value) : Bool := submission.phase.waits && !submission.cancelled

/-- A pending task is in the channel or waits for its slot. -/
theorem sent_or_waits {submission : Submission Process Job Value} (pending : submission.pending = true) :
    submission.phase.sent = true ∨ submission.waits = true := by
  rw [Submission.pending, Bool.and_eq_true] at pending
  obtain ⟨at_phase, active⟩ := pending
  unfold TaskPhase.pending at at_phase
  split at at_phase
  · rename_i queued
    rw [queued]
    exact Or.inl rfl
  · rename_i waiting
    rw [waits, waiting, active]
    exact Or.inr rfl
  · cases at_phase

end Submission

namespace Queue

/-- These tasks are accepted, not cancelled and not inside their downloads yet. -/
def backlog (queue : Queue Store Process Job Value) : Nat := queue.submissions.countP Submission.pending

def waiters (queue : Queue Store Process Job Value) : Nat := queue.submissions.countP Submission.waits

/-- The dispatcher takes the message of a task only while fewer tasks than the bound wait for a slot. -/
def Paced (bound : Nat) (queue : Queue Store Process Job Value) : QueueAct Job Label → Prop
  | .receive => ∀ place rest, queue.channel = .submit place :: rest → queue.waiters < bound
  | _ => True

/-- The channel keeps its capacity, and the waiting tasks keep their bound. -/
structure Flowing (config : QueueConfig) (bound : Nat) (queue : Queue Store Process Job Value) : Prop where
  sound : queue.Sound config
  room : queue.channel.length ≤ config.capacity
  paced : queue.waiters ≤ bound

variable {config : QueueConfig} {program : TaskProgram Store Process Job Label Value}
  {queue after : Queue Store Process Job Value} {act : QueueAct Job Label}

/-- Every queued task has its own message in the channel. -/
theorem Sound.sent_le (sound : queue.Sound config) :
    (queue.submissions.countP fun submission => submission.phase.sent) ≤ queue.channel.length := by
  have injective : Function.Injective QueueMsg.submit := fun _ _ same => QueueMsg.submit.inj same
  apply countP_le_length injective
  intro place submission present sent
  apply sound.listed present
  unfold TaskPhase.sent at sent
  split at sent
  · assumption
  · cases sent

theorem Flowing.backlog_le {bound : Nat} (flowing : queue.Flowing config bound) :
    queue.backlog ≤ bound + config.capacity := by
  have split : queue.backlog ≤ (queue.submissions.countP fun submission => submission.phase.sent) + queue.waiters :=
    countP_le_add fun _ _ => Submission.sent_or_waits
  have inside := flowing.sound.sent_le
  have room := flowing.room
  have paced := flowing.paced
  omega

end Queue

/-- Only the dispatcher makes a task wait for its slot. -/
theorem SubmissionMove.waits {program : TaskProgram Store Process Job Label Value} {act : QueueAct Job Label}
    {place : Nat} {old new : Submission Process Job Value} (move : SubmissionMove program place old act new)
    (other : act ≠ .receive) (now : new.waits = true) : old.waits = true := by
  rw [Submission.waits, Bool.and_eq_true] at now ⊢
  obtain ⟨waiting, active⟩ := now
  cases move with
  | stayed => exact ⟨waiting, active⟩
  | received => exact absurd rfl other
  | stepped => exact ⟨(TaskPhase.blind_waits _ _).symm.trans waiting, active⟩
  | cleaned left => cases left <;> cases waiting
  | cancelled => cases active
  | _ => cases waiting

namespace QueueMove

variable {config : QueueConfig} {program : TaskProgram Store Process Job Label Value}
  {queue after : Queue Store Process Job Value} {act : QueueAct Job Label}

theorem waiters_le (move : QueueMove config program queue act after) (posted : queue.Posted)
    (other : act ≠ .receive) : after.waiters ≤ queue.waiters := by
  rcases move.length with same | ⟨id, job, rfl, _, rfl⟩
  · apply countP_le_of_forall₂
    rw [List.forall₂_iff_get]
    refine ⟨same.symm, fun place inQueue inAfter => ?_⟩
    obtain ⟨new, present, turn⟩ := move.persists posted (List.getElem?_eq_getElem inQueue)
    rw [List.getElem?_eq_getElem inAfter, Option.some.injEq] at present
    simp only [List.get_eq_getElem, present]
    exact turn.waits other
  · simp only [Queue.waiters, Queue.submit, List.countP_append, List.countP_singleton, Submission.waits,
      TaskPhase.waits, Bool.false_and, Bool.false_eq_true, if_false, Nat.add_zero, Nat.le_refl]

/-- One step of a paced queue keeps both bounds. -/
theorem flowing {bound : Nat} (move : QueueMove config program queue act after) (paced : queue.Paced bound act)
    (flowing : queue.Flowing config bound) : after.Flowing config bound where
  sound := move.sound flowing.sound
  room := by
    have room := flowing.room
    cases move with
    | sent _ _ _ _ _ free | shut _ _ free =>
        show (queue.channel ++ [_]).length ≤ _
        rw [List.length_append, List.length_singleton]
        exact free
    | received place rest submission present running next | ordered rest running next =>
        rw [next, List.length_cons] at room
        show rest.length ≤ _
        omega
    | exited => exact Nat.zero_le _
    | _ => exact room
  paced := by
    by_cases other : act = .receive
    · subst other
      cases move with
      | received place rest submission present running next =>
          have grown := countP_set_le Submission.waits queue.submissions place { submission with phase := .waiting }
          exact Nat.le_trans grown (paced place rest next)
      | ordered | drained => exact flowing.paced
      | cancelled _ _ asked => cases asked
    · exact Nat.le_trans (move.waiters_le flowing.sound.posted other) flowing.paced

end QueueMove

namespace Queue

variable {config : QueueConfig} {program : TaskProgram Store Process Job Label Value}
  {queue : Queue Store Process Job Value}

/-- One more task is accepted. -/
def withQueued (queue : Queue Store Process Job Value) (job : Job) : Queue Store Process Job Value :=
  { queue with
    submissions := queue.submissions ++ [⟨⟨queue.nextId, job⟩, .queued, false, []⟩]
    channel := queue.channel ++ [.submit queue.submissions.length]
    cancels := fun id => if id = queue.nextId then some queue.submissions.length else queue.cancels id
    nextId := (queue.nextId + 1) % 2 ^ 64 }

/-- One more task is accepted, and the dispatcher takes it out of the channel. -/
def withWaiting (program : TaskProgram Store Process Job Label Value) (queue : Queue Store Process Job Value)
    (job : Job) : Queue Store Process Job Value :=
  { queue.withQueued job with
    submissions := queue.submissions ++ [⟨⟨queue.nextId, job⟩, .waiting, false, []⟩]
    channel := []
    store := program.queued ⟨queue.nextId, job⟩ queue.store }

theorem waiters_withQueued (queue : Queue Store Process Job Value) (job : Job) :
    (queue.withQueued job).waiters = queue.waiters := by
  rw [waiters, withQueued, List.countP_append]
  rfl

theorem backlog_withQueued (queue : Queue Store Process Job Value) (job : Job) :
    (queue.withQueued job).backlog = queue.backlog + 1 := by
  rw [backlog, withQueued, List.countP_append]
  rfl

theorem waiters_withWaiting (queue : Queue Store Process Job Value) (job : Job) :
    (queue.withWaiting program job).waiters = queue.waiters + 1 := by
  rw [waiters, withWaiting, List.countP_append]
  rfl

theorem backlog_withWaiting (queue : Queue Store Process Job Value) (job : Job) :
    (queue.withWaiting program job).backlog = queue.backlog + 1 := by
  rw [backlog, withWaiting, List.countP_append]
  rfl

/-- A submit call returns while the channel has room. -/
theorem reaches_withQueued {bound : Nat} (job : Job) (held : queue.held = true)
    (running : queue.dispatcher = .running) (room : queue.channel.length < config.capacity) :
    Reaches (Queue.step config program) (Queue.Paced bound) queue (queue.withQueued job) := by
  have begun : Queue.step config program queue (.submit 0 job) = some (queue.submit 0 job) := if_pos held
  have inserted : Queue.step config program (queue.submit 0 job) (.insert queue.submissions.length) =
      some { queue.submit 0 job with
        submissions := queue.submissions ++ [⟨⟨queue.nextId, job⟩, .sending, false, []⟩]
        cancels := fun id => if id = queue.nextId then some queue.submissions.length else queue.cancels id } := by
    simp [step, submit, insert, put]
  apply (Reaches.single (.submit 0 job) trivial begun).trans
  apply (Reaches.single (.insert queue.submissions.length) trivial inserted).trans
  apply Reaches.single (.send queue.submissions.length) trivial
  simp [step, submit, send, put, withQueued, running, room]

theorem reaches_withWaiting {bound : Nat} (job : Job) (held : queue.held = true)
    (running : queue.dispatcher = .running) (empty : queue.channel = []) (fewer : queue.waiters < bound) :
    Reaches (Queue.step config program) (Queue.Paced bound) queue (queue.withWaiting program job) := by
  have room : queue.channel.length < config.capacity := by
    rw [empty]
    exact Nat.lt_of_lt_of_le Nat.one_pos (Nat.le_max_right _ _)
  apply (reaches_withQueued job held running room).trans
  apply Reaches.single .receive
  · intro place rest _
    rwa [waiters_withQueued]
  · simp [step, receive, withQueued, running, empty, put, withWaiting]

/-- As many tasks as the bound can wait for a slot while the channel is empty. -/
theorem reaches_waiters (config : QueueConfig) (program : TaskProgram Store Process Job Label Value) (store : Store)
    (job : Job) {bound waiting : Nat} (allowed : waiting ≤ bound) :
    ∃ queue : Queue Store Process Job Value,
      Reaches (Queue.step config program) (Queue.Paced bound) (Queue.new config store) queue ∧
        queue.held = true ∧ queue.dispatcher = .running ∧ queue.channel = [] ∧ queue.waiters = waiting ∧
          queue.backlog = waiting := by
  induction waiting with
  | zero => exact ⟨_, .refl _, rfl, rfl, rfl, rfl, rfl⟩
  | succ waiting ih =>
      obtain ⟨queue, reached, held, running, empty, counted, known⟩ := ih (by omega)
      refine ⟨queue.withWaiting program job, reached.trans (reaches_withWaiting job held running empty (by omega)), held,
        running, rfl, ?_, ?_⟩
      · rw [waiters_withWaiting, counted]
      · rw [backlog_withWaiting, known]

/-- Then the submit calls go on until the channel is full. -/
theorem reaches_backlog (config : QueueConfig) (program : TaskProgram Store Process Job Label Value) (store : Store)
    (job : Job) {bound queued : Nat} (room : queued ≤ config.capacity) :
    ∃ queue : Queue Store Process Job Value,
      Reaches (Queue.step config program) (Queue.Paced bound) (Queue.new config store) queue ∧
        queue.held = true ∧ queue.dispatcher = .running ∧ queue.channel.length = queued ∧
          queue.backlog = bound + queued := by
  induction queued with
  | zero =>
      obtain ⟨queue, reached, held, running, empty, _, known⟩ :=
        reaches_waiters config program store job (Nat.le_refl bound)
      exact ⟨queue, reached, held, running, by rw [empty, List.length_nil], known⟩
  | succ queued ih =>
      obtain ⟨queue, reached, held, running, filled, known⟩ := ih (by omega)
      refine ⟨queue.withQueued job, reached.trans (reaches_withQueued job held running (by omega)), held, running, ?_,
        ?_⟩
      · rw [withQueued, List.length_append, filled, List.length_singleton]
      · rw [backlog_withQueued, known, Nat.add_assoc]

/-- The capacity of the channel and one task bound the backlog exactly when the dispatcher lets at most one task wait
for its slot. -/
theorem backlog_bounded_iff (config : QueueConfig) (program : TaskProgram Store Process Job Label Value) (store : Store)
    (job : Job) (bound : Nat) :
    (∀ acts queue, Run (Queue.step config program) (Queue.Paced bound) (Queue.new config store) acts queue →
      queue.backlog ≤ max 1 config.queueCapacity + 1) ↔ bound ≤ 1 := by
  have capacity : config.capacity = max 1 config.queueCapacity := Nat.max_comm _ _
  constructor
  · intro always
    obtain ⟨queue, ⟨acts, run⟩, _, _, _, known⟩ :=
      @reaches_backlog _ _ _ _ _ config program store job bound _ (Nat.le_refl _)
    have small := always acts queue run
    omega
  · intro few acts queue run
    have initial : (Queue.new config store : Queue Store Process Job Value).Flowing config bound :=
      ⟨new_sound config store, Nat.zero_le _, Nat.zero_le _⟩
    have flowing : queue.Flowing config bound :=
      run.invariant (Flowing config bound) (fun _ _ _ held paced taken => (step_move taken).flowing paced held) initial
    have small := flowing.backlog_le
    omega

/-- The dispatcher takes two tasks out of the channel while no slot is given, and a third one fills the channel. -/
def drainedActs : List (QueueAct SavedTask ReportingEvent) :=
  submitActs 0 0 ++ [.receive] ++ submitActs 0 1 ++ [.receive] ++ submitActs 0 2

theorem backlog_not_bounded :
    ¬ ∀ acts queue, Run (Queue.step ⟨1, 1⟩ (reporting DownloadState {} .through anyHasher)) (fun _ _ => True)
      (emptyQueue ⟨1, 1⟩) acts queue → queue.backlog ≤ max 1 1 + 1 := by
  intro always
  have run : Run (Queue.step ⟨1, 1⟩ (reporting DownloadState {} .through anyHasher)) (fun _ _ => True)
      (emptyQueue ⟨1, 1⟩) drainedActs ((queueRun ⟨1, 1⟩ drainedActs).get rfl) :=
    run_of_replay (by decide +kernel) (Option.some_get _).symm
  have bounded := always _ _ run
  revert bounded
  decide +kernel

end Queue

end FastDownloader
