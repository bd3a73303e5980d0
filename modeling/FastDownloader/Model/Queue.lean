/-
This file models `DownloadQueue`: the submit calls, the dispatcher and the task bodies, in any interleaving.
The download that a body runs is any program. The queue reads only its outcome.
-/

import FastDownloader.Foundation.Session
import FastDownloader.Model.Error

namespace FastDownloader

open Foundation

/-- A submitted task has its final id. -/
structure QueueTask (Job : Type*) where
  id : Nat
  job : Job

/-- The task of a queue can be cancelled, and the dispatcher reports its arrival. -/
structure TaskProgram (Store Process Job Label Value : Type*) extends
    Program Store Process (QueueTask Job) Label (Except Error Value) where
  cancel : Process → Process
  queued : QueueTask Job → Store → Store

/-- A body that never got a slot has no process. Everything that a body has started may go on after its reply. -/
inductive TaskPhase (Process : Type*) where
  | locking
  | sending
  | refused
  | queued
  | waiting
  | running (process : Process)
  | cleaning (left : Option Process)
  | releasing (left : Process)
  | finished (left : Option Process)
  | dropped

/-- A submission owns its token and the sender of its result. -/
structure Submission (Process Job Value : Type*) where
  task : QueueTask Job
  phase : TaskPhase Process
  cancelled : Bool
  replies : List (Except Error Value)

/-- A message names a submission by its place. -/
inductive QueueMsg where
  | submit (place : Nat)
  | shutdown
  deriving DecidableEq

/-- The dispatcher leaves its loop before its receiver is dropped. -/
inductive Dispatcher where
  | running
  | exiting
  | exited
  deriving DecidableEq

structure QueueConfig where
  maxConcurrent : Nat
  queueCapacity : Nat

def QueueConfig.slots (config : QueueConfig) : Nat := max config.maxConcurrent 1

def QueueConfig.capacity (config : QueueConfig) : Nat := max config.queueCapacity 1

/-- The map `cancels` gives the token of a submission to an id. The queue is held while a clone of it exists. -/
structure Queue (Store Process Job Value : Type*) where
  submissions : List (Submission Process Job Value)
  channel : List QueueMsg
  dispatcher : Dispatcher
  cancels : Nat → Option Nat
  permits : Nat
  nextId : Nat
  held : Bool
  store : Store

/-- A submit call inserts its token, then sends its message or is refused. The other acts are those of the calls on the
queue, of the dispatcher and of the bodies. -/
inductive QueueAct (Job Label : Type*) where
  | submit (id : Nat) (job : Job)
  | insert (place : Nat)
  | send (place : Nat)
  | refuse (place : Nat)
  | shutdown
  | drop
  | receive
  | exit
  | acquire (place : Nat)
  | giveUp (place : Nat)
  | step (place : Nat) (label : Label)
  | reply (place : Nat)
  | cleanup (place : Nat)
  | release (place : Nat)
  | cancel (id : Nat)
  | cancelAll
  | cancelHandle (place : Nat)

variable {Store Process Job Label Value : Type*}

namespace TaskPhase

/-- The submit call has not returned. -/
def calling : TaskPhase Process → Bool
  | .locking | .sending => true
  | _ => false

/-- The submit call has returned a handle. -/
def accepted : TaskPhase Process → Bool
  | .locking | .sending | .refused => false
  | _ => true

/-- The body has its slot, and its download has not returned a result to it yet. -/
def inside : TaskPhase Process → Bool
  | .running _ => true
  | _ => false

def process : TaskPhase Process → Option Process
  | .running process => some process
  | .cleaning left => left
  | .releasing left => some left
  | .finished left => left
  | _ => none

/-- A body that has a permit releases it after its clean-up. -/
def cleaned : Option Process → TaskPhase Process
  | some left => .releasing left
  | none => .finished none

def withProcess (phase : TaskPhase Process) (process : Process) : TaskPhase Process :=
  match phase with
  | .running _ => .running process
  | .cleaning (some _) => .cleaning (some process)
  | .releasing _ => .releasing process
  | .finished (some _) => .finished (some process)
  | other => other

end TaskPhase

namespace Submission

/-- A receiver that has its result resolves, and so does one whose sender is gone. -/
def resolved (submission : Submission Process Job Value) : Bool :=
  !submission.replies.isEmpty || match submission.phase with
    | .refused | .dropped => true
    | _ => false

/-- The download shares the token of its submission. -/
def cancelNow (program : TaskProgram Store Process Job Label Value) (submission : Submission Process Job Value) :
    Submission Process Job Value :=
  { submission with
    cancelled := true
    phase := match submission.phase.process with
      | some process => submission.phase.withProcess (program.cancel process)
      | none => submission.phase }

/-- A message that is dropped drops the sender of its result. -/
def abandon (submission : Submission Process Job Value) : Submission Process Job Value :=
  match submission.phase with
  | .queued => { submission with phase := .dropped }
  | _ => submission

end Submission

namespace Queue

/-- A capacity or a number of slots of zero counts as one. -/
def new (config : QueueConfig) (store : Store) : Queue Store Process Job Value where
  submissions := []
  channel := []
  dispatcher := .running
  cancels := fun _ => none
  permits := config.slots
  nextId := 1
  held := true
  store := store

variable (config : QueueConfig) (program : TaskProgram Store Process Job Label Value)
  (queue : Queue Store Process Job Value)

def put (place : Nat) (submission : Submission Process Job Value) : Queue Store Process Job Value :=
  { queue with submissions := queue.submissions.set place submission }

def lookup (id : Nat) : Option (Nat × Submission Process Job Value) :=
  (queue.cancels id).bind fun place => queue.submissions[place]?.map fun submission => (place, submission)

/-- The counter wraps. -/
def submit (id : Nat) (job : Job) : Queue Store Process Job Value :=
  let given := if id = 0 then queue.nextId else id
  { queue with
    nextId := if id = 0 then (queue.nextId + 1) % 2 ^ 64 else queue.nextId
    submissions := queue.submissions ++ [⟨⟨given, job⟩, .locking, false, []⟩] }

def insert (place : Nat) (submission : Submission Process Job Value) : Option (Queue Store Process Job Value) :=
  match submission.phase with
  | .locking =>
      some { queue.put place { submission with phase := .sending } with
        cancels := fun id => if id = submission.task.id then some place else queue.cancels id }
  | _ => none

/-- A send waits for room in the channel. -/
def send (place : Nat) (submission : Submission Process Job Value) : Option (Queue Store Process Job Value) :=
  match submission.phase with
  | .sending =>
      if queue.dispatcher ≠ .exited ∧ queue.channel.length < config.capacity then
        some { queue.put place { submission with phase := .queued } with
          channel := queue.channel ++ [.submit place] }
      else none
  | _ => none

/-- A send fails once the receiver is dropped. -/
def refuse (place : Nat) (submission : Submission Process Job Value) : Option (Queue Store Process Job Value) :=
  match submission.phase with
  | .sending =>
      if queue.dispatcher = .exited then some (queue.put place { submission with phase := .refused }) else none
  | _ => none

/-- The dispatcher takes the next message. No message can come any more when the queue is empty and not held. -/
def receive : Option (Queue Store Process Job Value) :=
  match queue.dispatcher, queue.channel with
  | .running, .submit place :: rest =>
      queue.submissions[place]?.map fun submission =>
        { queue.put place { submission with phase := .waiting } with
          channel := rest
          store := program.queued submission.task queue.store }
  | .running, .shutdown :: rest => some { queue with dispatcher := .exiting, channel := rest }
  | .running, [] => if queue.held then none else some { queue with dispatcher := .exiting }
  | _, _ => none

/-- The messages that are left are dropped with the receiver. -/
def exit : Option (Queue Store Process Job Value) :=
  match queue.dispatcher with
  | .exiting =>
      some { queue with
        dispatcher := .exited
        channel := []
        submissions := queue.submissions.map Submission.abandon }
  | _ => none

def acquire (place : Nat) (submission : Submission Process Job Value) : Option (Queue Store Process Job Value) :=
  match submission.phase with
  | .waiting =>
      if 0 < queue.permits then
        let process := program.start submission.task
        let process := if submission.cancelled then program.cancel process else process
        some { queue.put place { submission with phase := .running process } with permits := queue.permits - 1 }
      else none
  | _ => none

/-- A cancelled task need not wait for its slot. -/
def giveUp (place : Nat) (submission : Submission Process Job Value) : Option (Queue Store Process Job Value) :=
  match submission.phase with
  | .waiting =>
      if submission.cancelled then
        some (queue.put place { submission with
          phase := .cleaning none
          replies := submission.replies ++ [.error .cancelled] })
      else none
  | _ => none

def advance (place : Nat) (label : Label) (submission : Submission Process Job Value) :
    Option (Queue Store Process Job Value) :=
  submission.phase.process.bind fun process =>
    (program.step submission.task (queue.store, process) label).map fun next =>
      { queue.put place { submission with phase := submission.phase.withProcess next.2 } with store := next.1 }

def reply (place : Nat) (submission : Submission Process Job Value) : Option (Queue Store Process Job Value) :=
  match submission.phase with
  | .running process =>
      (program.outcome process).map fun result =>
        queue.put place { submission with
          phase := .cleaning (some process)
          replies := submission.replies ++ [result] }
  | _ => none

/-- The entry of the id is removed, whoever owns it. -/
def cleanup (place : Nat) (submission : Submission Process Job Value) : Option (Queue Store Process Job Value) :=
  match submission.phase with
  | .cleaning left =>
      some { queue.put place { submission with phase := TaskPhase.cleaned left } with
        cancels := fun id => if id = submission.task.id then none else queue.cancels id }
  | _ => none

def release (place : Nat) (submission : Submission Process Job Value) : Option (Queue Store Process Job Value) :=
  match submission.phase with
  | .releasing left =>
      some { queue.put place { submission with phase := .finished (some left) } with permits := queue.permits + 1 }
  | _ => none

def cancel (id : Nat) : Except Error Unit × Queue Store Process Job Value :=
  match queue.lookup id with
  | some (place, submission) => (.ok (), queue.put place (submission.cancelNow program))
  | none => (.error (.taskNotFound id), queue)

/-- The submission has its token in the map. -/
def listed (place : Nat) (submission : Submission Process Job Value) : Bool :=
  queue.cancels submission.task.id = some place

def cancelAll : Queue Store Process Job Value :=
  { queue with
    submissions := queue.submissions.mapIdx fun place submission =>
      if queue.listed place submission then submission.cancelNow program else submission }

/-- A handle shares the token of its submission. -/
def cancelHandle (place : Nat) (submission : Submission Process Job Value) : Option (Queue Store Process Job Value) :=
  if submission.phase.accepted then some (queue.put place (submission.cancelNow program)) else none

/-- This is one step of the queue and its bodies. -/
def step : Step (Queue Store Process Job Value) (QueueAct Job Label) := fun queue act =>
  match act with
  | .submit id job => if queue.held then some (queue.submit id job) else none
  | .insert place => queue.submissions[place]?.bind (queue.insert place)
  | .send place => queue.submissions[place]?.bind (queue.send config place)
  | .refuse place => queue.submissions[place]?.bind (queue.refuse place)
  | .shutdown =>
      if queue.held ∧ queue.dispatcher ≠ .exited ∧ queue.channel.length < config.capacity then
        some { queue with channel := queue.channel ++ [.shutdown] }
      else none
  | .drop =>
      if queue.held ∧ ∀ submission ∈ queue.submissions, submission.phase.calling = false then
        some { queue with held := false }
      else none
  | .receive => queue.receive program
  | .exit => queue.exit
  | .acquire place => queue.submissions[place]?.bind (queue.acquire program place)
  | .giveUp place => queue.submissions[place]?.bind (queue.giveUp place)
  | .step place label => queue.submissions[place]?.bind (queue.advance program place label)
  | .reply place => queue.submissions[place]?.bind (queue.reply program place)
  | .cleanup place => queue.submissions[place]?.bind (queue.cleanup place)
  | .release place => queue.submissions[place]?.bind (queue.release place)
  | .cancel id => if queue.held then some (queue.cancel program id).2 else none
  | .cancelAll => if queue.held then some (queue.cancelAll program) else none
  | .cancelHandle place => queue.submissions[place]?.bind (queue.cancelHandle program place)

end Queue

end FastDownloader
