/-
This file lists what one step of the queue can do, and what it does to one submission.
-/

import FastDownloader.Foundation.Slots
import FastDownloader.Model.Queue

namespace FastDownloader

open Foundation

variable {Store Process Job Label Value : Type*}

namespace TaskPhase

/-- The body has a permit. -/
def holding : TaskPhase Process → Bool
  | .running _ | .cleaning (some _) | .releasing _ => true
  | _ => false

/-- The body has sent its result. -/
def answered : TaskPhase Process → Bool
  | .cleaning _ | .releasing _ | .finished _ => true
  | _ => false

/-- The submission has inserted its token, and no clean-up of its own has removed it. -/
def entered : TaskPhase Process → Bool
  | .locking | .releasing _ | .finished _ => false
  | _ => true

/-- The entry of the token has no reader left. -/
def stranded : TaskPhase Process → Bool
  | .refused | .dropped => true
  | _ => false

/-- The message of the submission is in the channel. -/
def sent : TaskPhase Process → Bool
  | .queued => true
  | _ => false

/-- A reading of a phase is blind when it does not look at the process. -/
def Blind {Reading : Type*} (reading : TaskPhase Process → Reading) : Prop :=
  ∀ phase process, reading (phase.withProcess process) = reading phase

theorem blind_of {Reading : Type*} {reading : TaskPhase Process → Reading}
    (running : ∀ old new, reading (.running new) = reading (.running old))
    (cleaning : ∀ old new, reading (.cleaning (some new)) = reading (.cleaning (some old)))
    (releasing : ∀ old new, reading (.releasing new) = reading (.releasing old))
    (finished : ∀ old new, reading (.finished (some new)) = reading (.finished (some old))) : Blind reading := by
  intro phase process
  unfold withProcess
  split
  · exact running _ _
  · exact cleaning _ _
  · exact releasing _ _
  · exact finished _ _
  · rfl

theorem blind_calling : Blind (@calling Process) :=
  blind_of (fun _ _ => rfl) (fun _ _ => rfl) (fun _ _ => rfl) fun _ _ => rfl

theorem blind_holding : Blind (@holding Process) :=
  blind_of (fun _ _ => rfl) (fun _ _ => rfl) (fun _ _ => rfl) fun _ _ => rfl

theorem blind_answered : Blind (@answered Process) :=
  blind_of (fun _ _ => rfl) (fun _ _ => rfl) (fun _ _ => rfl) fun _ _ => rfl

theorem blind_entered : Blind (@entered Process) :=
  blind_of (fun _ _ => rfl) (fun _ _ => rfl) (fun _ _ => rfl) fun _ _ => rfl

theorem blind_stranded : Blind (@stranded Process) :=
  blind_of (fun _ _ => rfl) (fun _ _ => rfl) (fun _ _ => rfl) fun _ _ => rfl

theorem blind_sent : Blind (@sent Process) :=
  blind_of (fun _ _ => rfl) (fun _ _ => rfl) (fun _ _ => rfl) fun _ _ => rfl

end TaskPhase

/-- A cancellation changes no blind reading. -/
theorem Submission.cancelNow_phase {program : TaskProgram Store Process Job Label Value} {Reading : Type*}
    {reading : TaskPhase Process → Reading} (blind : TaskPhase.Blind reading)
    (submission : Submission Process Job Value) :
    reading (submission.cancelNow program).phase = reading submission.phase := by
  unfold cancelNow
  dsimp only
  split
  · exact blind _ _
  · rfl

/-- The chosen submissions are cancelled. -/
def Queue.cancelAt (program : TaskProgram Store Process Job Label Value) (queue : Queue Store Process Job Value)
    (chosen : Nat → Submission Process Job Value → Bool) : Queue Store Process Job Value :=
  { queue with
    submissions := queue.submissions.mapIdx fun place submission =>
      if chosen place submission then submission.cancelNow program else submission }

/-- The act is a call that cancels. -/
def QueueAct.cancels : QueueAct Job Label → Bool
  | .cancel _ | .cancelAll | .cancelHandle _ => true
  | _ => false

/-- These are the transitions of the queue. -/
inductive QueueMove (config : QueueConfig) (program : TaskProgram Store Process Job Label Value)
    (queue : Queue Store Process Job Value) : QueueAct Job Label → Queue Store Process Job Value → Prop
  | submitted (id : Nat) (job : Job) (held : queue.held = true) :
      QueueMove config program queue (.submit id job) (queue.submit id job)
  | inserted (place : Nat) (submission : Submission Process Job Value)
      (present : queue.submissions[place]? = some submission) (at_phase : submission.phase = .locking) :
      QueueMove config program queue (.insert place)
        { queue.put place { submission with phase := .sending } with
          cancels := fun id => if id = submission.task.id then some place else queue.cancels id }
  | sent (place : Nat) (submission : Submission Process Job Value)
      (present : queue.submissions[place]? = some submission) (at_phase : submission.phase = .sending)
      (listening : queue.dispatcher ≠ .exited) (room : queue.channel.length < config.capacity) :
      QueueMove config program queue (.send place)
        { queue.put place { submission with phase := .queued } with channel := queue.channel ++ [.submit place] }
  | refused (place : Nat) (submission : Submission Process Job Value)
      (present : queue.submissions[place]? = some submission) (at_phase : submission.phase = .sending)
      (deaf : queue.dispatcher = .exited) :
      QueueMove config program queue (.refuse place) (queue.put place { submission with phase := .refused })
  | shut (held : queue.held = true) (listening : queue.dispatcher ≠ .exited)
      (room : queue.channel.length < config.capacity) :
      QueueMove config program queue .shutdown { queue with channel := queue.channel ++ [.shutdown] }
  | dropped (held : queue.held = true)
      (returned : ∀ submission ∈ queue.submissions, submission.phase.calling = false) :
      QueueMove config program queue .drop { queue with held := false }
  | received (place : Nat) (rest : List QueueMsg) (submission : Submission Process Job Value)
      (present : queue.submissions[place]? = some submission) (running : queue.dispatcher = .running)
      (next : queue.channel = .submit place :: rest) :
      QueueMove config program queue .receive
        { queue.put place { submission with phase := .waiting } with
          channel := rest
          store := program.queued submission.task queue.store }
  | ordered (rest : List QueueMsg) (running : queue.dispatcher = .running)
      (next : queue.channel = .shutdown :: rest) :
      QueueMove config program queue .receive { queue with dispatcher := .exiting, channel := rest }
  | drained (running : queue.dispatcher = .running) (empty : queue.channel = []) (gone : queue.held = false) :
      QueueMove config program queue .receive { queue with dispatcher := .exiting }
  | exited (exiting : queue.dispatcher = .exiting) :
      QueueMove config program queue .exit
        { queue with
          dispatcher := .exited
          channel := []
          submissions := queue.submissions.map Submission.abandon }
  | acquired (place : Nat) (submission : Submission Process Job Value) (process : Process)
      (present : queue.submissions[place]? = some submission) (at_phase : submission.phase = .waiting)
      (free : 0 < queue.permits)
      (begun : process = if submission.cancelled then program.cancel (program.start submission.task)
        else program.start submission.task) :
      QueueMove config program queue (.acquire place)
        { queue.put place { submission with phase := .running process } with permits := queue.permits - 1 }
  | gaveUp (place : Nat) (submission : Submission Process Job Value)
      (present : queue.submissions[place]? = some submission) (at_phase : submission.phase = .waiting)
      (cancelled : submission.cancelled = true) :
      QueueMove config program queue (.giveUp place)
        (queue.put place { submission with
          phase := .cleaning none
          replies := submission.replies ++ [.error .cancelled] })
  | stepped (place : Nat) (label : Label) (submission : Submission Process Job Value) (process : Process)
      (next : Store × Process) (present : queue.submissions[place]? = some submission)
      (at_phase : submission.phase.process = some process)
      (taken : program.step submission.task (queue.store, process) label = some next) :
      QueueMove config program queue (.step place label)
        { queue.put place { submission with phase := submission.phase.withProcess next.2 } with store := next.1 }
  | replied (place : Nat) (submission : Submission Process Job Value) (process : Process)
      (result : Except Error Value) (present : queue.submissions[place]? = some submission)
      (at_phase : submission.phase = .running process) (returned : program.outcome process = some result) :
      QueueMove config program queue (.reply place)
        (queue.put place { submission with
          phase := .cleaning (some process)
          replies := submission.replies ++ [result] })
  | cleaned (place : Nat) (submission : Submission Process Job Value) (left : Option Process)
      (present : queue.submissions[place]? = some submission) (at_phase : submission.phase = .cleaning left) :
      QueueMove config program queue (.cleanup place)
        { queue.put place { submission with phase := TaskPhase.cleaned left } with
          cancels := fun id => if id = submission.task.id then none else queue.cancels id }
  | released (place : Nat) (submission : Submission Process Job Value) (left : Process)
      (present : queue.submissions[place]? = some submission) (at_phase : submission.phase = .releasing left) :
      QueueMove config program queue (.release place)
        { queue.put place { submission with phase := .finished (some left) } with permits := queue.permits + 1 }
  | cancelled (act : QueueAct Job Label) (chosen : Nat → Submission Process Job Value → Bool)
      (asked : act.cancels = true) :
      QueueMove config program queue act (queue.cancelAt program chosen)

/-- These are the transitions of the submission at one place. -/
inductive SubmissionMove (program : TaskProgram Store Process Job Label Value) (place : Nat)
    (old : Submission Process Job Value) : QueueAct Job Label → Submission Process Job Value → Prop
  | stayed (act : QueueAct Job Label) : SubmissionMove program place old act old
  | inserted (at_phase : old.phase = .locking) :
      SubmissionMove program place old (.insert place) { old with phase := .sending }
  | sent (at_phase : old.phase = .sending) :
      SubmissionMove program place old (.send place) { old with phase := .queued }
  | refused (at_phase : old.phase = .sending) :
      SubmissionMove program place old (.refuse place) { old with phase := .refused }
  | received (at_phase : old.phase = .queued) :
      SubmissionMove program place old .receive { old with phase := .waiting }
  | abandoned (at_phase : old.phase = .queued) :
      SubmissionMove program place old .exit { old with phase := .dropped }
  | acquired (process : Process) (at_phase : old.phase = .waiting) :
      SubmissionMove program place old (.acquire place) { old with phase := .running process }
  | gaveUp (at_phase : old.phase = .waiting) :
      SubmissionMove program place old (.giveUp place)
        { old with phase := .cleaning none, replies := old.replies ++ [.error .cancelled] }
  | stepped (label : Label) (next : Process) :
      SubmissionMove program place old (.step place label) { old with phase := old.phase.withProcess next }
  | replied (process : Process) (result : Except Error Value) (at_phase : old.phase = .running process) :
      SubmissionMove program place old (.reply place)
        { old with phase := .cleaning (some process), replies := old.replies ++ [result] }
  | cleaned (left : Option Process) (at_phase : old.phase = .cleaning left) :
      SubmissionMove program place old (.cleanup place) { old with phase := TaskPhase.cleaned left }
  | released (left : Process) (at_phase : old.phase = .releasing left) :
      SubmissionMove program place old (.release place) { old with phase := .finished (some left) }
  | cancelled (act : QueueAct Job Label) (asked : act.cancels = true) :
      SubmissionMove program place old act (old.cancelNow program)

namespace Queue

variable {config : QueueConfig} {program : TaskProgram Store Process Job Label Value}
  {queue after : Queue Store Process Job Value} {act : QueueAct Job Label}

/-- The cancellation of one submission chooses its place. -/
theorem cancelAt_one (place : Nat) {submission : Submission Process Job Value}
    (present : queue.submissions[place]? = some submission) :
    queue.put place (submission.cancelNow program) = queue.cancelAt program (fun other _ => other == place) := by
  unfold put cancelAt
  congr 1
  apply List.ext_getElem?
  intro other
  rw [List.getElem?_set, List.getElem?_mapIdx]
  obtain ⟨inside, found⟩ := List.getElem?_eq_some_iff.mp present
  by_cases same : place = other
  · subst same
    simp [inside, found]
  · have apart : (other == place) = false := beq_false_of_ne (Ne.symm same)
    simp [same, apart]

theorem cancelAt_none : queue.cancelAt program (fun _ _ => false) = queue := by
  have unchanged : (queue.submissions.mapIdx fun _ submission => submission) = queue.submissions := by
    apply List.ext_getElem?
    simp
  simp only [cancelAt, Bool.false_eq_true, if_false, unchanged]

/-- Each step of the queue is one of the listed transitions. -/
theorem step_move (taken : Queue.step config program queue act = some after) :
    QueueMove config program queue act after := by
  cases act with
  | submit id job =>
      simp only [step, Option.ite_none_right_eq_some, Option.some.injEq] at taken
      obtain ⟨held, rfl⟩ := taken
      exact .submitted id job held
  | insert place =>
      obtain ⟨submission, present, moved⟩ := Option.bind_eq_some_iff.mp taken
      unfold insert at moved
      split at moved
      · rename_i at_phase
        cases moved
        exact .inserted place submission present at_phase
      · cases moved
  | send place =>
      obtain ⟨submission, present, moved⟩ := Option.bind_eq_some_iff.mp taken
      unfold send at moved
      split at moved
      · rename_i at_phase
        simp only [Option.ite_none_right_eq_some, Option.some.injEq] at moved
        obtain ⟨⟨listening, room⟩, rfl⟩ := moved
        exact .sent place submission present at_phase listening room
      · cases moved
  | refuse place =>
      obtain ⟨submission, present, moved⟩ := Option.bind_eq_some_iff.mp taken
      unfold refuse at moved
      split at moved
      · rename_i at_phase
        simp only [Option.ite_none_right_eq_some, Option.some.injEq] at moved
        obtain ⟨deaf, rfl⟩ := moved
        exact .refused place submission present at_phase deaf
      · cases moved
  | shutdown =>
      simp only [step, Option.ite_none_right_eq_some, Option.some.injEq] at taken
      obtain ⟨⟨held, listening, room⟩, rfl⟩ := taken
      exact .shut held listening room
  | drop =>
      simp only [step, Option.ite_none_right_eq_some, Option.some.injEq] at taken
      obtain ⟨⟨held, returned⟩, rfl⟩ := taken
      exact .dropped held returned
  | receive =>
      simp only [step] at taken
      unfold receive at taken
      split at taken
      · rename_i place rest running next
        obtain ⟨submission, present, rfl⟩ := Option.map_eq_some_iff.mp taken
        exact .received place rest submission present running next
      · rename_i rest running next
        cases taken
        exact .ordered rest running next
      · rename_i running empty
        simp only [Option.ite_none_left_eq_some, Option.some.injEq, Bool.not_eq_true] at taken
        obtain ⟨gone, rfl⟩ := taken
        exact .drained running empty gone
      · cases taken
  | exit =>
      simp only [step] at taken
      unfold exit at taken
      split at taken
      · rename_i exiting
        cases taken
        exact .exited exiting
      · cases taken
  | acquire place =>
      obtain ⟨submission, present, moved⟩ := Option.bind_eq_some_iff.mp taken
      unfold acquire at moved
      split at moved
      · rename_i at_phase
        simp only [Option.ite_none_right_eq_some, Option.some.injEq] at moved
        obtain ⟨free, rfl⟩ := moved
        exact .acquired place submission _ present at_phase free rfl
      · cases moved
  | giveUp place =>
      obtain ⟨submission, present, moved⟩ := Option.bind_eq_some_iff.mp taken
      unfold giveUp at moved
      split at moved
      · rename_i at_phase
        simp only [Option.ite_none_right_eq_some, Option.some.injEq] at moved
        obtain ⟨cancelled, rfl⟩ := moved
        exact .gaveUp place submission present at_phase cancelled
      · cases moved
  | step place label =>
      obtain ⟨submission, present, moved⟩ := Option.bind_eq_some_iff.mp taken
      obtain ⟨process, at_phase, advanced⟩ := Option.bind_eq_some_iff.mp moved
      obtain ⟨next, stepped, rfl⟩ := Option.map_eq_some_iff.mp advanced
      exact .stepped place label submission process next present at_phase stepped
  | reply place =>
      obtain ⟨submission, present, moved⟩ := Option.bind_eq_some_iff.mp taken
      unfold reply at moved
      split at moved
      · rename_i process at_phase
        obtain ⟨result, returned, rfl⟩ := Option.map_eq_some_iff.mp moved
        exact .replied place submission process result present at_phase returned
      · cases moved
  | cleanup place =>
      obtain ⟨submission, present, moved⟩ := Option.bind_eq_some_iff.mp taken
      unfold cleanup at moved
      split at moved
      · rename_i left at_phase
        cases moved
        exact .cleaned place submission left present at_phase
      · cases moved
  | release place =>
      obtain ⟨submission, present, moved⟩ := Option.bind_eq_some_iff.mp taken
      unfold release at moved
      split at moved
      · rename_i left at_phase
        cases moved
        exact .released place submission left present at_phase
      · cases moved
  | cancel id =>
      simp only [step, Option.ite_none_right_eq_some, Option.some.injEq] at taken
      obtain ⟨_, rfl⟩ := taken
      unfold cancel
      split
      · rename_i place submission found
        obtain ⟨owner, _, mapped⟩ := Option.bind_eq_some_iff.mp found
        obtain ⟨_, present, same⟩ := Option.map_eq_some_iff.mp mapped
        cases same
        rw [cancelAt_one place present]
        exact .cancelled _ _ rfl
      · have unchanged : QueueMove config program queue (.cancel id) (queue.cancelAt program fun _ _ => false) :=
          .cancelled _ _ rfl
        rwa [cancelAt_none] at unchanged
  | cancelAll =>
      simp only [step, Option.ite_none_right_eq_some, Option.some.injEq] at taken
      obtain ⟨_, rfl⟩ := taken
      exact .cancelled _ queue.listed rfl
  | cancelHandle place =>
      obtain ⟨submission, present, moved⟩ := Option.bind_eq_some_iff.mp taken
      simp only [cancelHandle, Option.ite_none_right_eq_some, Option.some.injEq] at moved
      obtain ⟨_, rfl⟩ := moved
      rw [cancelAt_one place present]
      exact .cancelled _ _ rfl

/-- Every message of a submission in the channel finds the submission queued. -/
def Posted (queue : Queue Store Process Job Value) : Prop :=
  ∀ place submission, .submit place ∈ queue.channel → queue.submissions[place]? = some submission →
    submission.phase = .queued

theorem put_persists {place other : Nat} {old new was : Submission Process Job Value}
    (present : queue.submissions[place]? = some old) (turn : SubmissionMove program place old act new)
    (found : queue.submissions[other]? = some was) :
    ∃ now, (queue.put place new).submissions[other]? = some now ∧ SubmissionMove program other was act now := by
  by_cases same : place = other
  · subst same
    obtain rfl := Option.some.inj (present.symm.trans found)
    obtain ⟨inside, _⟩ := List.getElem?_eq_some_iff.mp present
    exact ⟨new, List.getElem?_set_self inside, turn⟩
  · refine ⟨was, ?_, .stayed _⟩
    simpa only [put, List.getElem?_set_ne same] using found

end Queue

namespace QueueMove

variable {config : QueueConfig} {program : TaskProgram Store Process Job Label Value}
  {queue after : Queue Store Process Job Value} {act : QueueAct Job Label}

/-- A submission stays at its place, and it takes one of its own transitions. -/
theorem persists (move : QueueMove config program queue act after) (posted : queue.Posted) {place : Nat}
    {old : Submission Process Job Value} (found : queue.submissions[place]? = some old) :
    ∃ new, after.submissions[place]? = some new ∧ SubmissionMove program place old act new := by
  have inside : place < queue.submissions.length := (List.getElem?_eq_some_iff.mp found).1
  cases move with
  | submitted id job =>
      refine ⟨old, ?_, .stayed _⟩
      simpa only [Queue.submit, List.getElem?_append_left inside] using found
  | inserted at_place submission present at_phase =>
      exact Queue.put_persists present (.inserted at_phase) found
  | sent at_place submission present at_phase =>
      exact Queue.put_persists present (.sent at_phase) found
  | refused at_place submission present at_phase =>
      exact Queue.put_persists present (.refused at_phase) found
  | shut | dropped | ordered | drained => exact ⟨old, found, .stayed _⟩
  | received at_place rest submission present running next =>
      have listed : QueueMsg.submit at_place ∈ queue.channel := next ▸ List.mem_cons_self
      exact Queue.put_persists present (.received (posted _ _ listed present)) found
  | exited =>
      refine ⟨old.abandon, by simp only [List.getElem?_map, found, Option.map_some], ?_⟩
      unfold Submission.abandon
      split
      · rename_i at_phase
        exact .abandoned at_phase
      · exact .stayed _
  | acquired at_place submission process present at_phase =>
      exact Queue.put_persists present (.acquired process at_phase) found
  | gaveUp at_place submission present at_phase =>
      exact Queue.put_persists present (.gaveUp at_phase) found
  | stepped at_place label submission process next present at_phase =>
      exact Queue.put_persists present (.stepped label next.2) found
  | replied at_place submission process result present at_phase =>
      exact Queue.put_persists present (.replied process result at_phase) found
  | cleaned at_place submission left present at_phase =>
      exact Queue.put_persists present (.cleaned left at_phase) found
  | released at_place submission left present at_phase =>
      exact Queue.put_persists present (.released left at_phase) found
  | cancelled _ chosen asked =>
      simp only [Queue.cancelAt, List.getElem?_mapIdx, found, Option.map_some]
      split_ifs
      · exact ⟨_, rfl, .cancelled _ asked⟩
      · exact ⟨_, rfl, .stayed _⟩

/-- Only a submit call adds a submission. -/
theorem length (move : QueueMove config program queue act after) :
    after.submissions.length = queue.submissions.length ∨
      ∃ id job, act = .submit id job ∧ queue.held = true ∧ after = queue.submit id job := by
  cases move with
  | submitted id job held => exact Or.inr ⟨id, job, rfl, held, rfl⟩
  | shut | dropped | ordered | drained => exact Or.inl rfl
  | exited => exact Or.inl (List.length_map _)
  | cancelled => exact Or.inl List.length_mapIdx
  | _ => exact Or.inl List.length_set

/-- A submission of the next state was there before, or a submit call has just begun it. -/
theorem origin (move : QueueMove config program queue act after) (posted : queue.Posted) {place : Nat}
    {new : Submission Process Job Value} (found : after.submissions[place]? = some new) :
    (∃ old, queue.submissions[place]? = some old ∧ SubmissionMove program place old act new) ∨
      (queue.held = true ∧ ∃ id job, act = .submit id job ∧
        new = ⟨⟨if id = 0 then queue.nextId else id, job⟩, .locking, false, []⟩) := by
  have inside : place < after.submissions.length := (List.getElem?_eq_some_iff.mp found).1
  by_cases before : place < queue.submissions.length
  · obtain ⟨now, present, turn⟩ := move.persists posted (List.getElem?_eq_getElem before)
    obtain rfl := Option.some.inj (present.symm.trans found)
    exact Or.inl ⟨_, List.getElem?_eq_getElem before, turn⟩
  · rcases move.length with same | ⟨id, job, rfl, held, rfl⟩
    · omega
    · refine Or.inr ⟨held, ?_⟩
      simp only [Queue.submit, List.length_append, List.length_singleton] at inside
      obtain rfl : place = queue.submissions.length := by omega
      simp only [Queue.submit, List.getElem?_append_right (Nat.le_refl _), Nat.sub_self, List.getElem?_cons_zero,
        Option.some.injEq] at found
      exact ⟨id, job, rfl, found.symm⟩

/-- A step that adds no submission keeps every reading that all transitions of this act keep. -/
theorem map_eq {Reading : Type*} (move : QueueMove config program queue act after) (posted : queue.Posted)
    (reading : Submission Process Job Value → Reading)
    (kept : ∀ {place : Nat} {old new : Submission Process Job Value},
      SubmissionMove program place old act new → reading new = reading old)
    (same : after.submissions.length = queue.submissions.length) :
    after.submissions.map reading = queue.submissions.map reading := by
  apply List.ext_getElem (by simpa only [List.length_map] using same)
  intro place inAfter inQueue
  simp only [List.length_map] at inAfter inQueue
  obtain ⟨new, present, turn⟩ := move.persists posted (List.getElem?_eq_getElem inQueue)
  rw [List.getElem?_eq_getElem inAfter, Option.some.injEq] at present
  rw [List.getElem_map, List.getElem_map, present, kept turn]

/-- When a reading is false at first and every submission keeps it, a step brings no submission to it and takes none
away. -/
theorem exists_iff (move : QueueMove config program queue act after) (posted : queue.Posted)
    (reading : TaskPhase Process → Bool) (first : reading .locking = false)
    (kept : ∀ {place : Nat} {old new : Submission Process Job Value},
      SubmissionMove program place old act new → reading new.phase = reading old.phase) :
    (∃ submission ∈ after.submissions, reading submission.phase = true) ↔
      ∃ submission ∈ queue.submissions, reading submission.phase = true := by
  constructor
  · rintro ⟨new, member, holds⟩
    obtain ⟨place, found⟩ := List.getElem?_of_mem member
    rcases move.origin posted found with ⟨old, present, turn⟩ | ⟨_, _, _, _, rfl⟩
    · exact ⟨old, List.mem_of_getElem? present, (kept turn).symm.trans holds⟩
    · cases first.symm.trans holds
  · rintro ⟨old, member, holds⟩
    obtain ⟨place, found⟩ := List.getElem?_of_mem member
    obtain ⟨new, present, turn⟩ := move.persists posted found
    exact ⟨new, List.mem_of_getElem? present, (kept turn).trans holds⟩

end QueueMove

end FastDownloader
