/-
This file proves what every step of the queue keeps, whatever the clients and the downloads do.
-/

import FastDownloader.Proof.Queue.Step

namespace FastDownloader

open Foundation

variable {Store Process Job Label Value : Type*}

/-- These acts move a message of a submission. -/
def QueueAct.posts : QueueAct Job Label → Bool
  | .send _ | .receive | .exit => true
  | _ => false

/-- These acts move a permit. -/
def QueueAct.grants : QueueAct Job Label → Bool
  | .acquire _ | .release _ => true
  | _ => false

/-- These acts change the map. -/
def QueueAct.enters : QueueAct Job Label → Bool
  | .insert _ | .cleanup _ => true
  | _ => false

/-- A call that cancels moves no message and no permit, and it leaves the map as it is. -/
theorem QueueAct.cancels_quiet {act : QueueAct Job Label} (asked : act.cancels = true) :
    act.posts = false ∧ act.grants = false ∧ act.enters = false := by
  cases act with
  | cancel | cancelAll | cancelHandle => exact ⟨rfl, rfl, rfl⟩
  | _ => cases asked

namespace SubmissionMove

variable {program : TaskProgram Store Process Job Label Value} {act : QueueAct Job Label} {place : Nat}
  {old new : Submission Process Job Value}

theorem task (move : SubmissionMove program place old act new) : new.task = old.task := by
  cases move <;> rfl

theorem sent_eq (move : SubmissionMove program place old act new) (quiet : act.posts = false) :
    new.phase.sent = old.phase.sent := by
  cases move with
  | stayed => rfl
  | sent | received | abandoned => cases quiet
  | inserted at_phase | refused at_phase | acquired _ at_phase | gaveUp at_phase | replied _ _ at_phase
  | released _ at_phase => rw [at_phase]; rfl
  | stepped => exact TaskPhase.blind_sent _ _
  | cleaned left at_phase => rw [at_phase]; cases left <;> rfl
  | cancelled => exact Submission.cancelNow_phase TaskPhase.blind_sent _

theorem holding_eq (move : SubmissionMove program place old act new) (quiet : act.grants = false) :
    new.phase.holding = old.phase.holding := by
  cases move with
  | stayed => rfl
  | acquired | released => cases quiet
  | inserted at_phase | sent at_phase | refused at_phase | received at_phase | abandoned at_phase
  | gaveUp at_phase | replied _ _ at_phase => rw [at_phase]; rfl
  | stepped => exact TaskPhase.blind_holding _ _
  | cleaned left at_phase => rw [at_phase]; cases left <;> rfl
  | cancelled => exact Submission.cancelNow_phase TaskPhase.blind_holding _

theorem entered_eq (move : SubmissionMove program place old act new) (quiet : act.enters = false) :
    new.phase.entered = old.phase.entered := by
  cases move with
  | stayed => rfl
  | inserted | cleaned => cases quiet
  | sent at_phase | refused at_phase | received at_phase | abandoned at_phase | acquired _ at_phase
  | gaveUp at_phase | replied _ _ at_phase | released _ at_phase => rw [at_phase]; rfl
  | stepped => exact TaskPhase.blind_entered _ _
  | cancelled => exact Submission.cancelNow_phase TaskPhase.blind_entered _

theorem calling (move : SubmissionMove program place old act new) (now : new.phase.calling = true) :
    old.phase.calling = true := by
  cases move with
  | stayed => exact now
  | inserted at_phase => rw [at_phase]; rfl
  | stepped => exact (TaskPhase.blind_calling _ _).symm.trans now
  | cancelled => exact (Submission.cancelNow_phase TaskPhase.blind_calling _).symm.trans now
  | cleaned left => cases left <;> cases now
  | _ => cases now

/-- A result is sent when the body becomes an answered one, and only then. -/
theorem replies (move : SubmissionMove program place old act new)
    (single : old.replies.length = old.phase.answered.toNat) :
    new.replies.length = new.phase.answered.toNat := by
  cases move with
  | stayed => exact single
  | inserted at_phase | sent at_phase | refused at_phase | received at_phase | abandoned at_phase
  | acquired _ at_phase | released _ at_phase => rw [at_phase] at single; exact single
  | gaveUp at_phase | replied _ _ at_phase =>
      rw [at_phase] at single
      simp only [List.length_append, single]
      rfl
  | stepped => exact single.trans (congrArg Bool.toNat (TaskPhase.blind_answered _ _).symm)
  | cleaned left at_phase =>
      rw [at_phase] at single
      cases left <;> exact single
  | cancelled => exact single.trans (congrArg Bool.toNat (Submission.cancelNow_phase TaskPhase.blind_answered _).symm)

end SubmissionMove

/-- The message of the submission at this place is in the channel. -/
def sentAt (submissions : List (Submission Process Job Value)) (place : Nat) : Bool :=
  submissions[place]?.any fun submission => submission.phase.sent

/-- The tasks that have a permit. -/
def holders (submissions : List (Submission Process Job Value)) : Nat :=
  (submissions.map fun submission => submission.phase.holding.toNat).sum

theorem sentAt_set {submissions : List (Submission Process Job Value)} {place : Nat}
    {old new : Submission Process Job Value} (present : submissions[place]? = some old) (other : Nat) :
    sentAt (submissions.set place new) other = if place = other then new.phase.sent else sentAt submissions other := by
  obtain ⟨inside, _⟩ := List.getElem?_eq_some_iff.mp present
  unfold sentAt
  split_ifs with same
  · subst same
    rw [List.getElem?_set_self inside, Option.any_some]
  · rw [List.getElem?_set_ne same]

theorem holders_set {submissions : List (Submission Process Job Value)} {place : Nat}
    {old : Submission Process Job Value} (new : Submission Process Job Value)
    (present : submissions[place]? = some old) :
    holders (submissions.set place new) + old.phase.holding.toNat = holders submissions + new.phase.holding.toNat :=
  sum_map_set _ _ present

theorem Submission.abandon_sent (submission : Submission Process Job Value) :
    submission.abandon.phase.sent = false := by
  unfold abandon
  split
  · rfl
  · rename_i other
    cases at_phase : submission.phase with
    | queued => exact absurd at_phase other
    | _ => rfl

namespace Queue

variable {config : QueueConfig} {program : TaskProgram Store Process Job Label Value}
  {queue after : Queue Store Process Job Value} {act : QueueAct Job Label}

/-- These facts hold at every moment of every run. -/
structure Sound (config : QueueConfig) (queue : Queue Store Process Job Value) : Prop where
  channel : ∀ place, queue.channel.count (.submit place) = (sentAt queue.submissions place).toNat
  permits : queue.permits + holders queue.submissions = config.slots
  replies : ∀ submission ∈ queue.submissions, submission.replies.length = submission.phase.answered.toNat
  cancels : ∀ id place, queue.cancels id = some place →
    ∃ submission, queue.submissions[place]? = some submission ∧ submission.task.id = id ∧ submission.phase.entered = true
  calling : ∀ submission ∈ queue.submissions, submission.phase.calling = true → queue.held = true
  closed : queue.dispatcher = .exited → queue.channel = []

/-- A message in the channel names a queued submission. -/
theorem Sound.queued (sound : Sound config queue) {place : Nat} (listed : .submit place ∈ queue.channel) :
    ∃ submission, queue.submissions[place]? = some submission ∧ submission.phase = .queued := by
  have once : 0 < queue.channel.count (.submit place) := List.count_pos_iff.mpr listed
  rw [sound.channel place, sentAt] at once
  cases present : queue.submissions[place]? with
  | none => simp [present] at once
  | some submission =>
      rw [present, Option.any_some] at once
      refine ⟨submission, rfl, ?_⟩
      cases at_phase : submission.phase with
      | queued => rfl
      | _ => simp [at_phase, TaskPhase.sent] at once

theorem Sound.posted (sound : Sound config queue) : queue.Posted := by
  intro place submission listed present
  obtain ⟨owner, found, at_phase⟩ := sound.queued listed
  obtain rfl := Option.some.inj (present.symm.trans found)
  exact at_phase

/-- A queued submission has its message in the channel. -/
theorem Sound.listed (sound : Sound config queue) {place : Nat} {submission : Submission Process Job Value}
    (present : queue.submissions[place]? = some submission) (at_phase : submission.phase = .queued) :
    .submit place ∈ queue.channel := by
  apply List.count_pos_iff.mp
  rw [sound.channel place, sentAt, present, Option.any_some, at_phase]
  exact Nat.one_pos

/-- An entry of another id names another submission. -/
theorem Sound.apart (sound : Sound config queue) {id place other : Nat} {submission : Submission Process Job Value}
    (entry : queue.cancels id = some place) (present : queue.submissions[other]? = some submission)
    (differs : id ≠ submission.task.id) : other ≠ place := by
  rintro rfl
  obtain ⟨owner, found, named, _⟩ := sound.cancels id other entry
  obtain rfl := Option.some.inj (present.symm.trans found)
  exact differs named.symm

/-- Nobody shuts the queue down. -/
def Open (_queue : Queue Store Process Job Value) : QueueAct Job Label → Prop
  | .shutdown => False
  | _ => True

instance (queue : Queue Store Process Job Value) (act : QueueAct Job Label) : Decidable (queue.Open act) := by
  unfold Open
  split <;> infer_instance

end Queue

namespace QueueMove

variable {config : QueueConfig} {program : TaskProgram Store Process Job Label Value}
  {queue after : Queue Store Process Job Value} {act : QueueAct Job Label}

theorem sentAt_eq (move : QueueMove config program queue act after) (posted : queue.Posted)
    (quiet : act.posts = false) (place : Nat) : sentAt after.submissions place = sentAt queue.submissions place := by
  unfold sentAt
  cases found : queue.submissions[place]? with
  | some old =>
      obtain ⟨new, present, turn⟩ := move.persists posted found
      rw [present, Option.any_some, Option.any_some]
      exact turn.sent_eq quiet
  | none =>
      cases added : after.submissions[place]? with
      | none => rfl
      | some new =>
          rcases move.origin posted added with ⟨old, present, _⟩ | ⟨_, _, _, _, rfl⟩
          · rw [found] at present
            cases present
          · rfl

theorem holders_eq (move : QueueMove config program queue act after) (posted : queue.Posted)
    (quiet : act.grants = false) : holders after.submissions = holders queue.submissions := by
  rcases move.length with same | ⟨id, job, rfl, _, rfl⟩
  · have pointwise : (after.submissions.map fun submission => submission.phase.holding.toNat) =
        queue.submissions.map fun submission => submission.phase.holding.toNat :=
      move.map_eq posted _ (fun turn => congrArg Bool.toNat (turn.holding_eq quiet)) same
    unfold holders
    rw [pointwise]
  · simp only [holders, Queue.submit, List.map_append, List.sum_append, List.map_cons, List.map_nil,
      List.sum_cons, List.sum_nil, TaskPhase.holding, Bool.toNat_false, Nat.add_zero]

/-- The other acts leave the messages of the submissions alone. -/
theorem count_eq (move : QueueMove config program queue act after) (quiet : act.posts = false) (place : Nat) :
    after.channel.count (.submit place) = queue.channel.count (.submit place) := by
  cases move with
  | sent | received | ordered | drained | exited => cases quiet
  | shut => exact List.count_append
  | _ => rfl

/-- A message and the phase of its submission change together. -/
theorem channel (move : QueueMove config program queue act after) (sound : queue.Sound config) (place : Nat) :
    after.channel.count (.submit place) = (sentAt after.submissions place).toNat := by
  have counted := sound.channel place
  cases quiet : act.posts with
  | false => rw [move.count_eq quiet, move.sentAt_eq sound.posted quiet, counted]
  | true =>
      cases move with
      | sent at_place submission present at_phase listening room =>
          dsimp only [Queue.put]
          rw [List.count_append, counted, sentAt_set present]
          by_cases same : at_place = place
          · subst same
            have unsent : sentAt queue.submissions at_place = false := by
              rw [sentAt, present, Option.any_some, at_phase]
              rfl
            rw [unsent, if_pos rfl, List.count_singleton_self]
            rfl
          · have other : ([.submit at_place] : List QueueMsg).count (.submit place) = 0 := by
              rw [List.count_eq_zero, List.mem_singleton, QueueMsg.submit.injEq]
              exact fun equal => same equal.symm
            rw [other, if_neg same, Nat.add_zero]
      | received at_place rest submission present running next =>
          dsimp only [Queue.put]
          rw [next, List.count_cons] at counted
          rw [sentAt_set present]
          by_cases same : at_place = place
          · subst same
            rw [if_pos (beq_self_eq_true _)] at counted
            rw [if_pos rfl]
            have once := Bool.toNat_le (sentAt queue.submissions at_place)
            show rest.count _ = 0
            omega
          · have apart : ((.submit at_place : QueueMsg) == .submit place) = false := by
              rw [beq_eq_false_iff_ne, ne_eq, QueueMsg.submit.injEq]
              exact same
            rw [apart, if_neg Bool.false_ne_true, Nat.add_zero] at counted
            rw [if_neg same]
            exact counted
      | ordered rest running next =>
          rw [next, List.count_cons_of_ne (by simp)] at counted
          exact counted
      | drained => exact counted
      | exited =>
          have gone : sentAt (queue.submissions.map Submission.abandon) place = false := by
            rw [sentAt, List.getElem?_map, Option.any_map, Option.any_eq_false_iff_get]
            exact fun known => Submission.abandon_sent _
          rw [gone]
          rfl
      | cancelled _ _ asked => cases (QueueAct.cancels_quiet asked).1.symm.trans quiet
      | _ => cases quiet

/-- A permit leaves the semaphore for a task and comes back from it. -/
theorem permits (move : QueueMove config program queue act after) (sound : queue.Sound config) :
    after.permits + holders after.submissions = config.slots := by
  have account := sound.permits
  cases quiet : act.grants with
  | false =>
      have same : after.permits = queue.permits := by
        cases move with
        | acquired | released => cases quiet
        | _ => rfl
      rw [same, move.holders_eq sound.posted quiet, account]
  | true =>
      cases move with
      | acquired place submission process present at_phase free begun =>
          have moved := holders_set { submission with phase := .running process } present
          simp only [at_phase, TaskPhase.holding, Bool.toNat_false, Bool.toNat_true] at moved
          dsimp only [Queue.put]
          omega
      | released place submission left present at_phase =>
          have moved := holders_set { submission with phase := .finished (some left) } present
          simp only [at_phase, TaskPhase.holding, Bool.toNat_false, Bool.toNat_true] at moved
          dsimp only [Queue.put]
          omega
      | cancelled _ _ asked => cases (QueueAct.cancels_quiet asked).2.1.symm.trans quiet
      | _ => cases quiet

/-- An entry of the map names a submission that has entered its token and not removed it. -/
theorem cancels (move : QueueMove config program queue act after) (sound : queue.Sound config) {id place : Nat}
    (entry : after.cancels id = some place) : ∃ submission, after.submissions[place]? = some submission ∧
      submission.task.id = id ∧ submission.phase.entered = true := by
  have kept : after.cancels id = queue.cancels id → act.enters = false → ∃ submission,
      after.submissions[place]? = some submission ∧ submission.task.id = id ∧ submission.phase.entered = true := by
    intro same quiet
    obtain ⟨old, present, named, holds⟩ := sound.cancels id place (same.symm.trans entry)
    obtain ⟨new, found, turn⟩ := move.persists sound.posted present
    exact ⟨new, found, turn.task ▸ named, (turn.entered_eq quiet).trans holds⟩
  cases move with
  | inserted at_place submission present at_phase =>
      dsimp only [Queue.put] at entry ⊢
      split_ifs at entry with same
      · obtain rfl := Option.some.inj entry
        obtain ⟨inside, _⟩ := List.getElem?_eq_some_iff.mp present
        exact ⟨_, List.getElem?_set_self inside, same.symm, rfl⟩
      · obtain ⟨old, found, named, holds⟩ := sound.cancels id place entry
        exact ⟨old, (List.getElem?_set_ne (sound.apart entry present same)).trans found, named, holds⟩
  | cleaned at_place submission left present at_phase =>
      dsimp only [Queue.put] at entry ⊢
      split_ifs at entry with same
      obtain ⟨old, found, named, holds⟩ := sound.cancels id place entry
      exact ⟨old, (List.getElem?_set_ne (sound.apart entry present same)).trans found, named, holds⟩
  | cancelled _ _ asked => exact kept rfl (QueueAct.cancels_quiet asked).2.2
  | _ => exact kept rfl rfl

/-- A call in progress keeps the queue alive. -/
theorem calling (move : QueueMove config program queue act after) (sound : queue.Sound config)
    {submission : Submission Process Job Value} (member : submission ∈ after.submissions)
    (busy : submission.phase.calling = true) : after.held = true := by
  obtain ⟨place, found⟩ := List.getElem?_of_mem member
  have held : queue.held = true := by
    rcases move.origin sound.posted found with ⟨old, present, turn⟩ | ⟨held, _⟩
    · exact sound.calling old (List.mem_of_getElem? present) (turn.calling busy)
    · exact held
  cases move with
  | dropped _ returned => cases (returned submission member).symm.trans busy
  | _ => exact held

theorem sound (move : QueueMove config program queue act after) (sound : queue.Sound config) :
    after.Sound config where
  channel := move.channel sound
  permits := move.permits sound
  replies submission member := by
    obtain ⟨place, found⟩ := List.getElem?_of_mem member
    rcases move.origin sound.posted found with ⟨old, present, turn⟩ | ⟨_, _, _, _, rfl⟩
    · exact turn.replies (sound.replies old (List.mem_of_getElem? present))
    · rfl
  cancels id place entry := move.cancels sound entry
  calling submission member busy := move.calling sound member busy
  closed gone := by
    cases move with
    | exited => rfl
    | sent _ _ _ _ listening => exact absurd gone listening
    | shut _ listening => exact absurd gone listening
    | received _ _ _ _ running => cases running.symm.trans gone
    | ordered | drained => cases gone
    | _ => exact sound.closed gone

end QueueMove

theorem Queue.new_sound (config : QueueConfig) (store : Store) :
    (Queue.new config store : Queue Store Process Job Value).Sound config where
  channel _ := rfl
  permits := rfl
  replies _ member := by cases member
  cancels _ _ entry := by cases entry
  calling _ member := by cases member
  closed _ := rfl

/-- Every moment of every run is sound. -/
theorem Queue.run_sound {config : QueueConfig} {program : TaskProgram Store Process Job Label Value}
    {guard : Queue Store Process Job Value → QueueAct Job Label → Prop} {first last : Queue Store Process Job Value}
    {acts : List (QueueAct Job Label)} (run : Run (Queue.step config program) guard first acts last)
    (initial : first.Sound config) : last.Sound config :=
  run.invariant (Queue.Sound config) (fun _ _ _ held _ taken => (step_move taken).sound held) initial

end FastDownloader
