/-
This file proves that a queue that nobody shuts down keeps its slots and serves every accepted task once.
-/

import FastDownloader.Foundation.Settling
import FastDownloader.Proof.Queue.Lifecycle

namespace FastDownloader

open Foundation

variable {Store Process Job Label Value : Type*}

/-- The body of the task has finished. -/
def TaskPhase.done : TaskPhase Process → Bool
  | .finished _ => true
  | _ => false

/-- A task has no permit before its submit call has returned and after its body has finished. -/
theorem TaskPhase.no_permit {phase : TaskPhase Process} (outside : phase.calling = true ∨ phase.done = true) :
    phase.holding = false := by
  cases phase with
  | locking | sending | finished => rfl
  | _ => rcases outside with calling | done <;> contradiction

namespace Queue

/-- The dispatcher of a queue that nobody shuts down leaves its loop only when no message can come any more. -/
structure Unshut (config : QueueConfig) (queue : Queue Store Process Job Value) : Prop where
  sound : queue.Sound config
  unordered : .shutdown ∉ queue.channel
  drained : queue.dispatcher ≠ .running → queue.channel = [] ∧ queue.held = false
  kept : ∀ submission ∈ queue.submissions, submission.phase.stranded = false

variable {config : QueueConfig} {program : TaskProgram Store Process Job Label Value}
  {queue after : Queue Store Process Job Value} {act : QueueAct Job Label}

theorem Unshut.running_of_held (unshut : queue.Unshut config) (held : queue.held = true) :
    queue.dispatcher = .running := by
  by_contra stopped
  cases held.symm.trans (unshut.drained stopped).2

theorem Unshut.running_of_calling (unshut : queue.Unshut config) {submission : Submission Process Job Value}
    (member : submission ∈ queue.submissions) (calling : submission.phase.calling = true) :
    queue.dispatcher = .running :=
  unshut.running_of_held (unshut.sound.calling submission member calling)

/-- The next message in the channel is that of a queued submission. -/
theorem Unshut.next (unshut : queue.Unshut config) {message : QueueMsg} {rest : List QueueMsg}
    (channel : queue.channel = message :: rest) :
    ∃ place submission, message = .submit place ∧ queue.submissions[place]? = some submission := by
  have listed : message ∈ queue.channel := channel ▸ List.mem_cons_self
  cases message with
  | shutdown => exact absurd listed unshut.unordered
  | submit place =>
      obtain ⟨submission, present, _⟩ := unshut.sound.queued listed
      exact ⟨place, submission, rfl, present⟩

end Queue

namespace QueueMove

variable {config : QueueConfig} {program : TaskProgram Store Process Job Label Value}
  {queue after : Queue Store Process Job Value} {act : QueueAct Job Label}

theorem unshut (move : QueueMove config program queue act after) (open_ : queue.Open act)
    (unshut : queue.Unshut config) : after.Unshut config where
  sound := move.sound unshut.sound
  unordered := by
    have unordered := unshut.unordered
    cases move with
    | shut => cases open_
    | sent => simpa [Queue.put] using unordered
    | received place rest submission present running next | ordered rest running next =>
        rw [next] at unordered
        exact fun later => unordered (List.mem_cons_of_mem _ later)
    | exited => exact List.not_mem_nil
    | _ => exact unordered
  drained := by
    intro stopped
    cases move with
    | shut => cases open_
    | submitted _ _ held => exact absurd (unshut.running_of_held held) stopped
    | sent place submission present at_phase =>
        exact absurd (unshut.running_of_calling (List.mem_of_getElem? present) (by rw [at_phase]; rfl)) stopped
    | received _ _ _ _ running => exact absurd running stopped
    | ordered rest running next => exact absurd (next ▸ List.mem_cons_self) unshut.unordered
    | drained running empty gone => exact ⟨empty, gone⟩
    | dropped => exact ⟨(unshut.drained stopped).1, rfl⟩
    | exited exiting => exact ⟨rfl, (unshut.drained (by rw [exiting]; rintro ⟨⟩)).2⟩
    | _ => exact unshut.drained stopped
  kept := by
    intro submission member
    obtain ⟨place, found⟩ := List.getElem?_of_mem member
    rcases move.origin unshut.sound.posted found with ⟨old, present, turn⟩ | ⟨_, _, _, _, rfl⟩
    · have earlier := List.mem_of_getElem? present
      have before := unshut.kept old earlier
      cases turn with
      | stayed => exact before
      | refused at_phase =>
          have running := unshut.running_of_calling earlier (by rw [at_phase]; rfl)
          cases move with
          | refused _ _ _ _ gone => cases running.symm.trans gone
          | cancelled _ _ asked => cases asked
      | abandoned at_phase =>
          have listed := unshut.sound.listed present at_phase
          cases move with
          | exited exiting =>
              rw [(unshut.drained (by rw [exiting]; rintro ⟨⟩)).1] at listed
              cases listed
          | cancelled _ _ asked => cases asked
      | stepped => exact (TaskPhase.blind_stranded _ _).trans before
      | cleaned left => cases left <;> rfl
      | cancelled => exact (Submission.cancelNow_phase TaskPhase.blind_stranded _).trans before
      | _ => rfl
    · rfl

end QueueMove

namespace Queue

/-- The steps that a submission still takes in the queue itself. -/
def phaseRank : TaskPhase Process → Nat
  | .locking => 7
  | .sending => 6
  | .queued => 5
  | .waiting => 4
  | .running _ => 3
  | .cleaning _ => 2
  | .releasing _ => 1
  | .finished _ | .refused | .dropped => 0

theorem blind_phaseRank : TaskPhase.Blind (@phaseRank Process) :=
  TaskPhase.blind_of (fun _ _ => rfl) (fun _ _ => rfl) (fun _ _ => rfl) fun _ _ => rfl

def dispatcherRank : Dispatcher → Nat
  | .running => 2
  | .exiting => 1
  | .exited => 0

def rank (queue : Queue Store Process Job Value) : Nat :=
  dispatcherRank queue.dispatcher + (queue.submissions.map fun submission => phaseRank submission.phase).sum

/-- The clients call nothing but cancellations. -/
def Calm (_queue : Queue Store Process Job Value) : QueueAct Job Label → Prop
  | .submit _ _ | .shutdown | .drop => False
  | _ => True

/-- The queue itself does not move. -/
def Idle (_queue : Queue Store Process Job Value) : QueueAct Job Label → Prop
  | .step _ _ | .cancel _ | .cancelAll | .cancelHandle _ => True
  | _ => False

/-- A download is still in progress, or every task has finished and has been sent one result. -/
def Settled (program : TaskProgram Store Process Job Label Value) (queue : Queue Store Process Job Value) : Prop :=
  (∃ submission ∈ queue.submissions, ∃ process, submission.phase = .running process ∧
    program.outcome process = none) ∨
  ∀ submission ∈ queue.submissions, submission.phase.done = true ∧ submission.replies.length = 1

end Queue

namespace QueueMove

variable {config : QueueConfig} {program : TaskProgram Store Process Job Label Value}
  {queue after : Queue Store Process Job Value} {act : QueueAct Job Label}

theorem rank_put {place : Nat} {old new : Submission Process Job Value}
    (present : queue.submissions[place]? = some old) (falls : Queue.phaseRank new.phase < Queue.phaseRank old.phase) :
    ((queue.submissions.set place new).map fun submission => Queue.phaseRank submission.phase).sum <
      (queue.submissions.map fun submission => Queue.phaseRank submission.phase).sum := by
  have moved := sum_map_set (fun submission => Queue.phaseRank submission.phase) new present
  omega

/-- Every step of the queue itself lowers the rank, and the other steps leave it as it is. -/
theorem rank_falls (move : QueueMove config program queue act after) (posted : queue.Posted) (calm : queue.Calm act) :
    after.rank < queue.rank ∨ (queue.Idle act ∧ after.rank ≤ queue.rank) := by
  have lower : ∀ {place : Nat} {old new : Submission Process Job Value},
      queue.submissions[place]? = some old → Queue.phaseRank new.phase < Queue.phaseRank old.phase →
      after.submissions = queue.submissions.set place new → after.dispatcher = queue.dispatcher →
        after.rank < queue.rank := by
    intro place old new present falls changed same
    have moved := rank_put present falls
    unfold Queue.rank
    rw [changed, same]
    omega
  cases move with
  | submitted | shut | dropped => cases calm
  | inserted place submission present at_phase | sent place submission present at_phase
  | refused place submission present at_phase | acquired place submission _ present at_phase
  | gaveUp place submission present at_phase | replied place submission _ _ present at_phase
  | released place submission _ present at_phase =>
      exact Or.inl (lower present (by simp [at_phase, Queue.phaseRank]) rfl rfl)
  | received place rest submission present running next =>
      have at_phase := posted place submission (next ▸ List.mem_cons_self) present
      exact Or.inl (lower present (by simp [at_phase, Queue.phaseRank]) rfl rfl)
  | cleaned place submission left present at_phase =>
      refine Or.inl (lower present ?_ rfl rfl)
      cases left <;> simp [at_phase, Queue.phaseRank, TaskPhase.cleaned]
  | ordered _ running | drained running =>
      refine Or.inl ?_
      simp only [Queue.rank, running, Queue.dispatcherRank]
      omega
  | exited exiting =>
      have dropped : ((queue.submissions.map Submission.abandon).map fun submission =>
          Queue.phaseRank submission.phase).sum ≤
            (queue.submissions.map fun submission => Queue.phaseRank submission.phase).sum := by
        rw [List.map_map]
        refine List.sum_le_sum fun submission _ => ?_
        dsimp only [Function.comp]
        unfold Submission.abandon
        split
        · exact Nat.zero_le _
        · exact Nat.le_refl _
      refine Or.inl ?_
      simp only [Queue.rank, exiting, Queue.dispatcherRank]
      omega
  | stepped place label submission process next present =>
      have moved := sum_map_set (fun submission => Queue.phaseRank submission.phase)
        { submission with phase := submission.phase.withProcess next.2 } present
      have same := Queue.blind_phaseRank submission.phase next.2
      refine Or.inr ⟨trivial, ?_⟩
      dsimp only [Queue.rank, Queue.put] at moved ⊢
      omega
  | cancelled _ chosen asked =>
      have same : ((queue.submissions.mapIdx fun place submission =>
          if chosen place submission then submission.cancelNow program else submission).map fun submission =>
            Queue.phaseRank submission.phase) = queue.submissions.map fun submission =>
              Queue.phaseRank submission.phase := by
        apply List.ext_getElem (by simp)
        intro place _ _
        simp only [List.getElem_map, List.getElem_mapIdx]
        split_ifs
        · exact Submission.cancelNow_phase Queue.blind_phaseRank _
        · rfl
      refine Or.inr ⟨?_, ?_⟩
      · cases act with
        | cancel | cancelAll | cancelHandle => trivial
        | _ => cases asked
      · simp only [Queue.rank, Queue.cancelAt, same, Nat.le_refl]

end QueueMove

namespace Queue

variable {config : QueueConfig} {program : TaskProgram Store Process Job Label Value}
  {queue : Queue Store Process Job Value}

/-- The dispatcher can take the next message. -/
theorem Unshut.receives (unshut : queue.Unshut config) (waiting : queue.channel ≠ []) :
    (Queue.step config program queue .receive).isSome = true := by
  have running : queue.dispatcher = .running := by
    by_contra stopped
    exact waiting (unshut.drained stopped).1
  cases channel : queue.channel with
  | nil => exact absurd channel waiting
  | cons message rest =>
      obtain ⟨place, submission, rfl, present⟩ := unshut.next channel
      simp only [step, receive, running, channel, present, Option.map_some, Option.isSome_some]

/-- A task that has a permit and is not inside its download moves on, and so does one whose download has returned. -/
theorem moves_of_holding {place : Nat} {submission : Submission Process Job Value}
    (present : queue.submissions[place]? = some submission) (holding : submission.phase.holding = true)
    (returned : ∀ process, submission.phase = .running process → (program.outcome process).isSome = true) :
    ∃ act, queue.Calm act ∧ ¬ queue.Idle act ∧ (Queue.step config program queue act).isSome = true := by
  cases at_phase : submission.phase with
  | running process =>
      obtain ⟨result, ended⟩ := Option.isSome_iff_exists.mp (returned process at_phase)
      refine ⟨.reply place, trivial, not_false, ?_⟩
      simp [step, present, reply, at_phase, ended]
  | cleaning left =>
      refine ⟨.cleanup place, trivial, not_false, ?_⟩
      simp [step, present, cleanup, at_phase]
  | releasing left =>
      refine ⟨.release place, trivial, not_false, ?_⟩
      simp [step, present, release, at_phase]
  | _ => rw [at_phase] at holding; cases holding

theorem holders_eq_countP (submissions : List (Submission Process Job Value)) :
    holders submissions = submissions.countP fun submission => submission.phase.holding := by
  unfold holders
  induction submissions with
  | nil => rfl
  | cons submission rest ih =>
      rw [List.map_cons, List.sum_cons, List.countP_cons, ih, Nat.add_comm]
      cases submission.phase.holding <;> rfl

/-- Some task has a permit when none is free. -/
theorem Unshut.holder (unshut : queue.Unshut config) (full : queue.permits = 0) :
    ∃ (place : Nat) (submission : Submission Process Job Value), queue.submissions[place]? = some submission ∧
      submission.phase.holding = true := by
  have account := unshut.sound.permits
  have some_slot : 0 < config.slots := Nat.lt_of_lt_of_le Nat.one_pos (Nat.le_max_right _ _)
  rw [full, Nat.zero_add, holders_eq_countP] at account
  obtain ⟨submission, member, holding⟩ := List.countP_pos_iff.mp (account ▸ some_slot)
  obtain ⟨place, present⟩ := List.getElem?_of_mem member
  exact ⟨place, submission, present, holding⟩

/-- As long as a task has not finished and no download is in progress, the queue moves by itself. -/
theorem Unshut.moves (unshut : queue.Unshut config) (unsettled : ¬ queue.Settled program) :
    ∃ act, queue.Calm act ∧ ¬ queue.Idle act ∧ (Queue.step config program queue act).isSome = true := by
  obtain ⟨busy, unfinished⟩ := not_or.mp unsettled
  have returned : ∀ submission ∈ queue.submissions, ∀ process, submission.phase = .running process →
      (program.outcome process).isSome = true := by
    intro submission member process at_phase
    by_contra open_
    exact busy ⟨submission, member, process, at_phase, Option.not_isSome_iff_eq_none.mp open_⟩
  simp only [not_forall] at unfinished
  obtain ⟨submission, member, unfinished⟩ := unfinished
  obtain ⟨place, present⟩ := List.getElem?_of_mem member
  have single := unshut.sound.replies submission member
  cases at_phase : submission.phase with
  | locking =>
      refine ⟨.insert place, trivial, not_false, ?_⟩
      simp [step, present, insert, at_phase]
  | sending =>
      by_cases room : queue.channel.length < config.capacity
      · have running := unshut.running_of_calling member (by rw [at_phase]; rfl)
        refine ⟨.send place, trivial, not_false, ?_⟩
        simp [step, present, send, at_phase, running, room]
      · refine ⟨.receive, trivial, not_false, unshut.receives ?_⟩
        intro empty
        rw [empty] at room
        exact room (Nat.lt_of_lt_of_le Nat.one_pos (Nat.le_max_right _ _))
  | queued =>
      refine ⟨.receive, trivial, not_false, unshut.receives ?_⟩
      exact List.ne_nil_of_mem (unshut.sound.listed present at_phase)
  | waiting =>
      by_cases free : 0 < queue.permits
      · refine ⟨.acquire place, trivial, not_false, ?_⟩
        simp [step, present, acquire, at_phase, free]
      · obtain ⟨other, holder, found, holding⟩ := unshut.holder (Nat.eq_zero_of_not_pos free)
        exact moves_of_holding found holding (returned holder (List.mem_of_getElem? found))
  | running => exact moves_of_holding present (by rw [at_phase]; rfl) (returned submission member)
  | cleaning left =>
      refine ⟨.cleanup place, trivial, not_false, ?_⟩
      simp [step, present, cleanup, at_phase]
  | releasing => exact moves_of_holding present (by rw [at_phase]; rfl) (returned submission member)
  | finished =>
      rw [at_phase] at single
      exact absurd ⟨by rw [at_phase]; rfl, single⟩ unfinished
  | refused | dropped =>
      have kept := unshut.kept submission member
      rw [at_phase] at kept
      cases kept

/-- The queue serves all its tasks once the clients stop to submit and the downloads return. -/
theorem Unshut.settles (unshut : queue.Unshut config) :
    Settles (Queue.step config program) Queue.Calm Queue.Idle (Queue.Settled program) queue := by
  have ranked : Ranked (Queue.step config program) Queue.Calm Queue.Idle (Queue.Settled program) (Queue.Unshut config)
      Queue.rank := by
    refine ⟨?_, ?_, ?_⟩
    · intro before act after held calm taken
      refine (step_move taken).unshut ?_ held
      cases act with
      | shutdown => cases calm
      | _ => trivial
    · exact fun before act after held calm taken => (step_move taken).rank_falls held.sound.posted calm
    · exact fun state held unsettled => held.moves unsettled
  exact ranked.settles unshut

/-- The queue keeps its slots, loses no task and sends every result once. A cancellation meets the tasks of its id only.
When all bodies have finished, the permits are back and only calls in progress have entries. -/
structure Served (config : QueueConfig) (program : TaskProgram Store Process Job Label Value)
    (queue : Queue Store Process Job Value) : Prop where
  inside : (queue.submissions.countP fun submission => submission.phase.inside) ≤ max 1 config.maxConcurrent
  single : ∀ submission ∈ queue.submissions, submission.replies.length ≤ 1
  answered : ∀ submission ∈ queue.submissions, submission.phase.done = true → submission.replies.length = 1
  waiting : ∀ (place : Nat) (submission : Submission Process Job Value), queue.submissions[place]? = some submission →
    submission.phase.accepted = true → submission.replies = [] →
      (.submit place ∈ queue.channel ∧ queue.dispatcher = .running) ∨ submission.phase = .waiting ∨
        submission.phase.inside = true
  settles : Settles (Queue.step config program) Queue.Calm Queue.Idle (Queue.Settled program) queue
  cancels : ∀ (id place : Nat) (submission : Submission Process Job Value),
    queue.submissions[place]? = some submission → submission.task.id ≠ id →
      (queue.cancel program id).2.submissions[place]? = some submission
  rest : (∀ submission ∈ queue.submissions, submission.phase.accepted = true → submission.phase.done = true) →
    queue.permits = max 1 config.maxConcurrent ∧ ∀ id place, queue.cancels id = some place →
      ∃ submission, queue.submissions[place]? = some submission ∧ submission.phase.calling = true

theorem Unshut.served (unshut : queue.Unshut config) : queue.Served config program where
  inside := by
    have bounded := unshut.sound.permits
    rw [holders_eq_countP, QueueConfig.slots, Nat.max_comm] at bounded
    have holding : (queue.submissions.countP fun submission => submission.phase.inside) ≤
        queue.submissions.countP fun submission => submission.phase.holding := by
      refine List.countP_mono_left fun submission _ inside => ?_
      cases at_phase : submission.phase with
      | running => rfl
      | _ => rw [at_phase] at inside; cases inside
    omega
  single submission member := by
    rw [unshut.sound.replies submission member]
    exact Bool.toNat_le _
  answered submission member finished := by
    rw [unshut.sound.replies submission member]
    cases at_phase : submission.phase with
    | finished => rfl
    | _ => rw [at_phase] at finished; cases finished
  waiting place submission present accepted unanswered := by
    have member := List.mem_of_getElem? present
    have results := unshut.sound.replies submission member
    have kept := unshut.kept submission member
    rw [unanswered] at results
    cases at_phase : submission.phase with
    | queued =>
        have listed := unshut.sound.listed present at_phase
        refine Or.inl ⟨listed, ?_⟩
        by_contra stopped
        rw [(unshut.drained stopped).1] at listed
        cases listed
    | waiting => exact Or.inr (Or.inl rfl)
    | running => exact Or.inr (Or.inr rfl)
    | locking | sending | refused => rw [at_phase] at accepted; cases accepted
    | cleaning | releasing | finished => rw [at_phase] at results; cases results
    | dropped => rw [at_phase] at kept; cases kept
  settles := unshut.settles
  cancels id place submission present differs := by
    unfold cancel
    split
    · rename_i other owner found
      obtain ⟨at_place, entry, mapped⟩ := Option.bind_eq_some_iff.mp found
      obtain ⟨_, _, same⟩ := Option.map_eq_some_iff.mp mapped
      obtain ⟨rfl, rfl⟩ := Prod.mk.inj same
      have apart := unshut.sound.apart entry present fun equal => differs equal.symm
      exact (List.getElem?_set_ne apart.symm).trans present
    · exact present
  rest := by
    intro all_done
    have left : ∀ submission ∈ queue.submissions, submission.phase.calling = true ∨ submission.phase.done = true := by
      intro submission member
      have kept := unshut.kept submission member
      have finished := all_done submission member
      cases at_phase : submission.phase with
      | locking | sending => exact Or.inl rfl
      | refused => rw [at_phase] at kept; cases kept
      | _ => exact Or.inr (at_phase ▸ finished (by rw [at_phase]; rfl))
    have nobody : holders queue.submissions = 0 := by
      rw [holders_eq_countP, List.countP_eq_zero]
      intro submission member holding
      cases (TaskPhase.no_permit (left submission member)).symm.trans holding
    have account := unshut.sound.permits
    rw [nobody, Nat.add_zero, QueueConfig.slots, Nat.max_comm] at account
    refine ⟨account, fun id place entry => ?_⟩
    obtain ⟨submission, present, _, entered⟩ := unshut.sound.cancels id place entry
    refine ⟨submission, present, (left submission (List.mem_of_getElem? present)).resolve_right fun finished => ?_⟩
    cases at_phase : submission.phase with
    | finished => rw [at_phase] at entered; cases entered
    | _ => rw [at_phase] at finished; cases finished

/-- At every moment of every run in which nobody shuts the queue down, the queue serves its tasks. -/
theorem open_served (config : QueueConfig) (program : TaskProgram Store Process Job Label Value) (store : Store)
    (acts : List (QueueAct Job Label)) (queue : Queue Store Process Job Value)
    (run : Run (Queue.step config program) Queue.Open (Queue.new config store) acts queue) :
    queue.Served config program := by
  have fresh : (Queue.new config store : Queue Store Process Job Value).Unshut config :=
    ⟨new_sound config store, List.not_mem_nil, fun stopped => absurd rfl stopped, fun _ member => by cases member⟩
  exact (run.invariant (Queue.Unshut config)
    (fun _ _ _ unshut open_ taken => (step_move taken).unshut open_ unshut) fresh).served

/-- Two slots serve a task that fails and one that waits. -/
def servedActs : List (QueueAct SavedTask ReportingEvent) :=
  submitActs 0 0 ++ [.receive] ++ failActs 0 ++ [.cleanup 0, .release 0] ++ submitActs 0 1 ++ [.receive]

theorem open_served_two :
    ((queueRun ⟨2, 0⟩ servedActs).get rfl).Served ⟨2, 0⟩ (reporting DownloadState {} .through anyHasher) := by
  have run : Run (Queue.step ⟨2, 0⟩ (reporting DownloadState {} .through anyHasher)) Queue.Open
      (emptyQueue ⟨2, 0⟩) servedActs ((queueRun ⟨2, 0⟩ servedActs).get rfl) :=
    run_of_replay (by decide +kernel) (Option.some_get _).symm
  exact open_served _ _ _ _ _ run

/-- The queue numbers every task itself, and nobody shuts it down. -/
def Numbered (queue : Queue Store Process Job Value) (act : QueueAct Job Label) : Prop :=
  queue.Open act ∧ match act with
    | .submit id _ => id = 0
    | _ => True

instance (queue : Queue Store Process Job Value) (act : QueueAct Job Label) : Decidable (queue.Numbered act) := by
  induction act using QueueAct.casesOn with
  | submit id job => exact inferInstanceAs (Decidable (queue.Open (.submit id job : QueueAct Job Label) ∧ id = 0))
  | _ => exact @instDecidableAnd _ _ _ (.isTrue trivial)

/-- The only accepted task has finished while another call has entered its token. -/
def enteringActs : List (QueueAct SavedTask ReportingEvent) :=
  submitActs 0 0 ++ [.receive] ++ failActs 0 ++ [.cleanup 0, .release 0] ++ [.submit 0 badTask, .insert 1]

/-- The map is not empty then. -/
theorem cancels_not_empty :
    ¬ ∀ acts queue, Run (Queue.step ⟨1, 1⟩ (reporting DownloadState {} .through anyHasher)) Queue.Numbered
      (emptyQueue ⟨1, 1⟩) acts queue →
        (∀ submission ∈ queue.submissions, submission.phase.accepted = true → submission.phase.done = true) →
          ∀ id, queue.cancels id = none := by
  intro always
  have run : Run (Queue.step ⟨1, 1⟩ (reporting DownloadState {} .through anyHasher)) Queue.Numbered
      (emptyQueue ⟨1, 1⟩) enteringActs ((queueRun ⟨1, 1⟩ enteringActs).get rfl) :=
    run_of_replay (by decide +kernel) (Option.some_get _).symm
  have entry : ((queueRun ⟨1, 1⟩ enteringActs).get rfl).cancels 2 = some 1 := by decide +kernel
  cases entry.symm.trans (always _ _ run (by decide +kernel) 2)

end Queue

end FastDownloader
