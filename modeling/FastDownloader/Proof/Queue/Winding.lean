/-
This file shows that a queue answers a cancelled task whatever its other tasks do.
-/

import Mathlib.Data.Prod.Lex
import Mathlib.Order.WithBot
import FastDownloader.Foundation.Settling
import FastDownloader.Proof.Queue.Slots

namespace FastDownloader

open Foundation

/-- What a program shows of its cancelled processes. None of it looks at the store, which other processes change as they
like. A process is lost when it has panicked. -/
structure Winding {Store Process Job Label Value : Type*} (program : TaskProgram Store Process Job Label Value)
    (Rank : Type*) [Preorder Rank] where
  fit : Process → Prop
  told : Process → Prop
  lost : Process → Prop
  lingers : Process → Label → Prop
  height : QueueTask Job → Process → Rank
  start_fit : ∀ task, fit (program.start task)
  cancel_fit : ∀ process, fit process → fit (program.cancel process)
  cancel_told : ∀ process, told (program.cancel process)
  cancel_level : ∀ task process, height task (program.cancel process) ≤ height task process
  step_fit : ∀ task store process label next, fit process →
    program.step task (store, process) label = some next → fit next.2
  step_told : ∀ task store process label next, fit process → told process →
    program.step task (store, process) label = some next → told next.2
  falls : ∀ task store process label next, fit process → told process →
    program.step task (store, process) label = some next →
    height task next.2 < height task process ∨
      (lingers process label ∧ height task next.2 ≤ height task process)
  moves : ∀ task store process, fit process → told process → ¬ lost process → program.outcome process = none →
    ∃ label, ¬ lingers process label ∧ (program.step task (store, process) label).isSome = true

variable {Store Process Job Label Value : Type*} {config : QueueConfig}
  {program : TaskProgram Store Process Job Label Value} {queue after : Queue Store Process Job Value}
  {act : QueueAct Job Label} {place : Nat} {submission : Submission Process Job Value}

namespace TaskPhase

theorem process_withProcess {phase : TaskPhase Process} {process : Process} (next : Process)
    (at_process : phase.process = some process) : (phase.withProcess next).process = some next := by
  cases phase with
  | cleaning left | finished left =>
      cases left with
      | none => cases at_process
      | some left => rfl
  | running | releasing => rfl
  | _ => cases at_process

theorem blind_accepted : Blind (@accepted Process) :=
  blind_of (fun _ _ => rfl) (fun _ _ => rfl) (fun _ _ => rfl) fun _ _ => rfl

theorem blind_inside : Blind (@inside Process) :=
  blind_of (fun _ _ => rfl) (fun _ _ => rfl) (fun _ _ => rfl) fun _ _ => rfl

theorem queued_of_sent {phase : TaskPhase Process} (sent : phase.sent = true) : phase = .queued := by
  cases phase with
  | queued => rfl
  | _ => cases sent

end TaskPhase

namespace QueueMove

/-- What each process keeps, together with the token of its submission, all processes of the queue keep. -/
theorem processes (holds : Bool → Process → Prop) (move : QueueMove config program queue act after)
    (starts : ∀ task, holds false (program.start task))
    (cancels : ∀ cancelled process, holds cancelled process → holds true (program.cancel process))
    (steps : ∀ cancelled task store process label next, holds cancelled process →
      program.step task (store, process) label = some next → holds cancelled next.2)
    (all : ∀ submission ∈ queue.submissions, ∀ process ∈ submission.phase.process,
      holds submission.cancelled process) :
    ∀ submission ∈ after.submissions, ∀ process ∈ submission.phase.process, holds submission.cancelled process := by
  have alone : ∀ {place : Nat} {new : Submission Process Job Value},
      (∀ process ∈ new.phase.process, holds new.cancelled process) →
      ∀ submission ∈ queue.submissions.set place new, ∀ process ∈ submission.phase.process,
        holds submission.cancelled process := fun kept => forall_mem_set all kept
  cases move with
  | submitted id job held =>
      intro submission member
      rcases List.mem_append.mp member with old | new
      · exact all submission old
      · rw [List.mem_singleton.mp new]
        rintro _ ⟨⟩
  | shut | dropped | ordered | drained => exact all
  | inserted | sent | refused | received | gaveUp => exact alone (by rintro _ ⟨⟩)
  | exited =>
      intro submission member
      obtain ⟨old, present, rfl⟩ := List.mem_map.mp member
      unfold Submission.abandon
      split
      · rintro _ ⟨⟩
      · exact all old present
  | acquired place submission process present at_phase free begun =>
      refine alone fun other at_process => ?_
      obtain rfl := Option.some.inj at_process
      rw [begun]
      cases cancelled : submission.cancelled with
      | true => exact cancels _ _ (starts submission.task)
      | false => exact starts submission.task
  | stepped place label submission process next present at_process taken =>
      refine alone fun other at_other => ?_
      obtain rfl := Option.some.inj ((TaskPhase.process_withProcess next.2 at_process).symm.trans at_other)
      exact steps _ _ _ _ _ _ (all submission (List.mem_of_getElem? present) process at_process) taken
  | replied place submission process result present at_phase returned =>
      refine alone fun other at_other => all submission (List.mem_of_getElem? present) other ?_
      rw [at_phase]
      exact at_other
  | cleaned place submission left present at_phase =>
      refine alone fun other at_other => all submission (List.mem_of_getElem? present) other ?_
      rw [at_phase]
      cases left with
      | none => cases at_other
      | some left => exact at_other
  | released place submission left present at_phase =>
      refine alone fun other at_other => all submission (List.mem_of_getElem? present) other ?_
      rw [at_phase]
      exact at_other
  | cancelled act chosen asked =>
      intro submission member
      obtain ⟨place, inside, rfl⟩ := List.mem_mapIdx.mp member
      have kept := all _ (List.getElem_mem inside)
      split_ifs
      · unfold Submission.cancelNow
        intro other at_other
        dsimp only at at_other
        split at at_other
        · rename_i process at_process
          obtain rfl := Option.some.inj ((TaskPhase.process_withProcess _ at_process).symm.trans at_other)
          exact cancels _ _ (kept process at_process)
        · rename_i without
          cases without.symm.trans at_other
      · exact kept

end QueueMove

namespace SubmissionMove

/-- An accepted submission stays accepted. -/
theorem accepted {old new : Submission Process Job Value} (move : SubmissionMove program place old act new)
    (before : old.phase.accepted = true) : new.phase.accepted = true := by
  cases move with
  | stayed => exact before
  | inserted at_phase | sent at_phase | refused at_phase =>
      rw [at_phase] at before
      cases before
  | stepped label next => exact (TaskPhase.blind_accepted _ _).trans before
  | cleaned left => cases left <;> rfl
  | cancelled => exact (Submission.cancelNow_phase TaskPhase.blind_accepted _).trans before
  | _ => rfl

/-- A token that is set stays set. -/
theorem stays_cancelled {old new : Submission Process Job Value} (move : SubmissionMove program place old act new)
    (before : old.cancelled = true) : new.cancelled = true := by
  cases move with
  | cancelled => rfl
  | _ => exact before

end SubmissionMove

namespace Winding

variable {Rank : Type*} [Preorder Rank] (winding : Winding program Rank)

/-- The message of a queued task waits for those in front of it, and a running task waits for its process. -/
def heightOf (channel : List QueueMsg) (place : Nat) (submission : Submission Process Job Value) :
    Nat ×ₗ WithBot Rank :=
  match submission.phase with
  | .queued => toLex (5 + channel.idxOf (.submit place), ⊥)
  | .running process => toLex (3, (winding.height submission.task process : WithBot Rank))
  | other => toLex (Queue.phaseRank other, ⊥)

def queueHeight (place : Nat) (queue : Queue Store Process Job Value) : Nat ×ₗ WithBot Rank :=
  match queue.submissions[place]? with
  | some submission => winding.heightOf queue.channel place submission
  | none => toLex (0, ⊥)

/-- These acts do not bring the task at this place nearer to its answer. -/
def Elsewhere (place : Nat) (queue : Queue Store Process Job Value) : QueueAct Job Label → Prop
  | .receive | .exit => ∀ submission ∈ queue.submissions[place]?, submission.phase.sent = false
  | .acquire other | .giveUp other | .reply other | .cleanup other | .release other => other ≠ place
  | .step other label => other = place → ∀ submission ∈ queue.submissions[place]?, ∀ process,
      submission.phase = .running process → winding.lingers process label
  | _ => True

/-- The receiver of the result resolves. It does so, too, when its sender dies with a body that has panicked. -/
def Answered (place : Nat) (queue : Queue Store Process Job Value) : Prop :=
  ∃ submission, queue.submissions[place]? = some submission ∧
    (submission.resolved = true ∨ ∃ process, submission.phase = .running process ∧ winding.lost process)

/-- The submit call of the task at this place has returned, its token is set, and all processes know their tokens. -/
structure Wound (config : QueueConfig) (place : Nat) (queue : Queue Store Process Job Value) : Prop where
  sound : queue.Sound config
  processes : ∀ submission ∈ queue.submissions, ∀ process ∈ submission.phase.process,
    winding.fit process ∧ (submission.cancelled = true → winding.told process)
  cancelled : ∃ submission, queue.submissions[place]? = some submission ∧ submission.phase.accepted = true ∧
    submission.cancelled = true

variable {winding}

theorem told_processes (move : QueueMove config program queue act after)
    (all : ∀ submission ∈ queue.submissions, ∀ process ∈ submission.phase.process,
      winding.fit process ∧ (submission.cancelled = true → winding.told process)) :
    ∀ submission ∈ after.submissions, ∀ process ∈ submission.phase.process,
      winding.fit process ∧ (submission.cancelled = true → winding.told process) := by
  refine move.processes (fun cancelled process => winding.fit process ∧ (cancelled = true → winding.told process))
    (fun task => ⟨winding.start_fit task, by rintro ⟨⟩⟩) ?_ ?_ all
  · exact fun _ process held => ⟨winding.cancel_fit process held.1, fun _ => winding.cancel_told process⟩
  · exact fun _ task store process label next held taken =>
      ⟨winding.step_fit task store process label next held.1 taken,
        fun cancelled => winding.step_told task store process label next held.1 (held.2 cancelled) taken⟩

theorem Wound.step (wound : winding.Wound config place queue) (move : QueueMove config program queue act after) :
    winding.Wound config place after where
  sound := move.sound wound.sound
  processes := told_processes move wound.processes
  cancelled := by
    obtain ⟨old, present, accepted, cancelled⟩ := wound.cancelled
    obtain ⟨new, found, turn⟩ := move.persists wound.sound.posted present
    exact ⟨new, found, turn.accepted accepted, turn.stays_cancelled cancelled⟩

/-- Outside of the channel and of the download only the phase counts. -/
theorem heightOf_quiet (channel : List QueueMsg) (place : Nat) (unsent : submission.phase.sent = false)
    (outside : submission.phase.inside = false) :
    winding.heightOf channel place submission = toLex (Queue.phaseRank submission.phase, ⊥) := by
  unfold heightOf
  split <;> rename_i at_phase
  · rw [at_phase] at unsent
    cases unsent
  · rw [at_phase] at outside
    cases outside
  · rfl

/-- A task whose submission and message stay where they are stays as far from its answer as it was. -/
theorem level (present : queue.submissions[place]? = some submission)
    (still : after.submissions[place]? = some submission)
    (waits : submission.phase = .queued →
      after.channel.idxOf (.submit place) ≤ queue.channel.idxOf (.submit place)) :
    winding.queueHeight place after ≤ winding.queueHeight place queue := by
  rw [queueHeight, queueHeight, present, still]
  unfold heightOf
  dsimp only
  split
  · rename_i at_phase
    have nearer := waits at_phase
    rw [Prod.Lex.toLex_le_toLex]
    rcases Nat.lt_or_eq_of_le nearer with lower | same
    · exact Or.inl (by dsimp only; omega)
    · exact Or.inr ⟨by dsimp only; omega, le_rfl⟩
  · exact le_rfl
  · exact le_rfl

/-- A task that passes to a later phase comes nearer to its answer. -/
theorem lower {old new : Submission Process Job Value} (present : queue.submissions[place]? = some old)
    (changed : after.submissions[place]? = some new) (unsent : new.phase ≠ .queued)
    (falls : Queue.phaseRank new.phase < Queue.phaseRank old.phase) :
    winding.queueHeight place after < winding.queueHeight place queue := by
  rw [queueHeight, queueHeight, present, changed, Prod.Lex.lt_iff]
  left
  have least : Queue.phaseRank old.phase ≤ (ofLex (winding.heightOf queue.channel place old)).1 := by
    unfold heightOf
    split <;> rename_i at_phase
    · rw [at_phase]
      exact Nat.le_add_right 5 _
    · rw [at_phase]
      exact Nat.le_refl _
    · exact Nat.le_refl _
  have same : (ofLex (winding.heightOf after.channel place new)).1 = Queue.phaseRank new.phase := by
    unfold heightOf
    split <;> rename_i at_phase
    · exact absurd at_phase unsent
    · rw [at_phase]
      rfl
    · rfl
  exact same ▸ Nat.lt_of_lt_of_le falls least

/-- The update of another place leaves the submission alone. -/
theorem put_elsewhere {other : Nat} {new : Submission Process Job Value}
    (present : queue.submissions[place]? = some submission) (apart : other ≠ place) :
    (queue.put other new).submissions[place]? = some submission :=
  (List.getElem?_set_ne apart).trans present

theorem put_here {old new : Submission Process Job Value} (present : queue.submissions[place]? = some old) :
    (queue.put place new).submissions[place]? = some new :=
  List.getElem?_set_self (List.getElem?_eq_some_iff.mp present).1

/-- A message that comes later is behind the one of the task. -/
theorem idxOf_behind {channel : List QueueMsg} (listed : .submit place ∈ channel) (more : QueueMsg) :
    (channel ++ [more]).idxOf (.submit place) = channel.idxOf (.submit place) := by
  rw [List.idxOf_append, if_pos listed]

/-- The message in front of the one of the task has been taken. -/
theorem idxOf_front {message : QueueMsg} {rest : List QueueMsg} (other : message ≠ .submit place) :
    (message :: rest).idxOf (.submit place) = rest.idxOf (.submit place) + 1 :=
  List.idxOf_cons_ne rest other

/-- A queued task comes nearer to its answer with each message that the dispatcher takes. -/
theorem nearer (present : queue.submissions[place]? = some submission)
    (still : after.submissions[place]? = some submission) (queued : submission.phase = .queued)
    (nearer : after.channel.idxOf (.submit place) < queue.channel.idxOf (.submit place)) :
    winding.queueHeight place after < winding.queueHeight place queue := by
  rw [queueHeight, queueHeight, present, still, Prod.Lex.lt_iff]
  left
  unfold heightOf
  simp only [queued, ofLex_toLex]
  omega

/-- A step of a process of the task brings it nearer to its answer, or it lingers. -/
theorem stepped {label : Label} {process : Process} {next : Store × Process} (wound : winding.Wound config place queue)
    (present : queue.submissions[place]? = some submission) (cancelled : submission.cancelled = true)
    (at_process : submission.phase.process = some process)
    (taken : program.step submission.task (queue.store, process) label = some next)
    (found : after.submissions[place]? = some { submission with phase := submission.phase.withProcess next.2 }) :
    winding.queueHeight place after < winding.queueHeight place queue ∨
      (winding.Elsewhere place queue (.step place label : QueueAct Job Label) ∧
        winding.queueHeight place after ≤ winding.queueHeight place queue) := by
  obtain ⟨fit, told⟩ := wound.processes submission (List.mem_of_getElem? present) process at_process
  cases running : submission.phase.inside with
  | true =>
      have at_phase : submission.phase = .running process := by
        cases phase : submission.phase with
        | running inside =>
            rw [phase] at at_process
            exact congrArg _ (Option.some.inj at_process)
        | _ => rw [phase] at running; cases running
      have both : winding.queueHeight place queue = toLex (3, (winding.height submission.task process : WithBot Rank)) ∧
          winding.queueHeight place after = toLex (3, (winding.height submission.task next.2 : WithBot Rank)) := by
        rw [queueHeight, queueHeight, present, found]
        simp only [heightOf, at_phase, TaskPhase.withProcess, and_self]
      rw [both.1, both.2, Prod.Lex.toLex_lt_toLex, Prod.Lex.toLex_le_toLex]
      rcases winding.falls submission.task queue.store process label next fit (told cancelled) taken with
        lower | ⟨lingers, level⟩
      · exact Or.inl (Or.inr ⟨rfl, WithBot.coe_lt_coe.mpr lower⟩)
      · refine Or.inr ⟨fun _ other found process phase => ?_, Or.inr ⟨rfl, WithBot.coe_le_coe.mpr level⟩⟩
        obtain rfl := Option.some.inj (present.symm.trans found)
        obtain rfl := TaskPhase.running.inj (at_phase.symm.trans phase)
        exact lingers
  | false =>
      -- What a body has left behind does not move its phase.
      have unsent : submission.phase.sent = false := by
        cases phase : submission.phase with
        | queued => rw [phase] at at_process; cases at_process
        | _ => rfl
      refine Or.inr ⟨fun _ other found process phase => ?_, le_of_eq ?_⟩
      · obtain rfl := Option.some.inj (present.symm.trans found)
        rw [phase] at running
        cases running
      · rw [queueHeight, queueHeight, present, found]
        dsimp only
        rw [heightOf_quiet _ _ unsent running, heightOf_quiet _ _ ((TaskPhase.blind_sent _ _).trans unsent)
          ((TaskPhase.blind_inside _ _).trans running), Queue.blind_phaseRank]

/-- The cancellation of a task that is cancelled already changes nothing for it. -/
theorem cancelled_level (channel : List QueueMsg) (place : Nat) (submission : Submission Process Job Value) :
    winding.heightOf channel place (submission.cancelNow program) ≤ winding.heightOf channel place submission := by
  cases at_phase : submission.phase with
  | running process =>
      simp only [heightOf, Submission.cancelNow, at_phase, TaskPhase.process, TaskPhase.withProcess,
        Prod.Lex.toLex_le_toLex]
      exact Or.inr ⟨trivial, WithBot.coe_le_coe.mpr (winding.cancel_level submission.task process)⟩
  | cleaning left | finished left =>
      cases left <;> simp [heightOf, Submission.cancelNow, at_phase, TaskPhase.process, TaskPhase.withProcess,
        Queue.phaseRank]
  | _ => simp [heightOf, Submission.cancelNow, at_phase, TaskPhase.process, TaskPhase.withProcess, Queue.phaseRank]

/-- A step that passes one task to a later phase is elsewhere for the other tasks. -/
theorem turn {other : Nat} {old new : Submission Process Job Value}
    (present : queue.submissions[place]? = some submission) (found : queue.submissions[other]? = some old)
    (submissions : after.submissions = queue.submissions.set other new)
    (channel : after.channel = queue.channel) (unsent : new.phase ≠ .queued)
    (falls : Queue.phaseRank new.phase < Queue.phaseRank old.phase) :
    winding.queueHeight place after < winding.queueHeight place queue ∨
      (other ≠ place ∧ winding.queueHeight place after ≤ winding.queueHeight place queue) := by
  by_cases here : other = place
  · subst here
    refine Or.inl (lower found ?_ unsent falls)
    rw [submissions]
    exact put_here found
  · refine Or.inr ⟨here, level present ?_ fun _ => by rw [channel]⟩
    rw [submissions]
    exact put_elsewhere present here

/-- Each act brings the task at this place nearer to its answer, or it is an act elsewhere. -/
theorem Wound.falls (wound : winding.Wound config place queue) (move : QueueMove config program queue act after) :
    winding.queueHeight place after < winding.queueHeight place queue ∨
      (winding.Elsewhere place queue act ∧ winding.queueHeight place after ≤ winding.queueHeight place queue) := by
  obtain ⟨submission, present, accepted, cancelled⟩ := wound.cancelled
  have listed : submission.phase = .queued → .submit place ∈ queue.channel := wound.sound.listed present
  have same : ∀ {later : Queue Store Process Job Value}, later.channel = queue.channel →
      later.submissions[place]? = some submission →
      winding.queueHeight place later ≤ winding.queueHeight place queue :=
    fun channel still => level present still fun _ => by rw [channel]
  have own : ∀ {other : Nat} {old : Submission Process Job Value}, queue.submissions[other]? = some old →
      other = place → old = submission := by
    rintro other old found rfl
    exact Option.some.inj (found.symm.trans present)
  have calling : ∀ {other : Nat} {old : Submission Process Job Value}, queue.submissions[other]? = some old →
      old.phase.accepted = false → other ≠ place := by
    intro other old found unaccepted here
    cases accepted.symm.trans ((own found here) ▸ unaccepted)
  cases move with
  | submitted id job held =>
      refine Or.inr ⟨trivial, same rfl ?_⟩
      exact (List.getElem?_append_left (List.getElem?_eq_some_iff.mp present).1).trans present
  | inserted other old found at_phase | refused other old found at_phase =>
      exact Or.inr ⟨trivial, same rfl (put_elsewhere present (calling found (by rw [at_phase]; rfl)))⟩
  | sent other old found at_phase listening room =>
      refine Or.inr ⟨trivial, level present (put_elsewhere present (calling found (by rw [at_phase]; rfl))) ?_⟩
      exact fun queued => Nat.le_of_eq (idxOf_behind (listed queued) _)
  | shut => exact Or.inr ⟨trivial, level present present fun queued => Nat.le_of_eq (idxOf_behind (listed queued) _)⟩
  | dropped => exact Or.inr ⟨trivial, same rfl present⟩
  | received other rest old found running next =>
      by_cases here : other = place
      · obtain rfl := own found here
        subst here
        have queued := wound.sound.posted other old (next ▸ List.mem_cons_self) found
        exact Or.inl (lower present (put_here present) (by rintro ⟨⟩) (by simp [queued, Queue.phaseRank]))
      · have front : queue.channel.idxOf (.submit place) = rest.idxOf (.submit place) + 1 :=
          next ▸ idxOf_front (fun same => here (QueueMsg.submit.inj same))
        cases sent : submission.phase.sent with
        | true =>
            have queued := TaskPhase.queued_of_sent sent
            exact Or.inl (nearer present (put_elsewhere present here) queued (by dsimp only; omega))
        | false =>
            refine Or.inr ⟨fun other found => ?_, level present (put_elsewhere present here) fun _ => ?_⟩
            · obtain rfl := Option.some.inj (present.symm.trans found)
              exact sent
            · dsimp only
              omega
  | ordered rest running next =>
      have front : queue.channel.idxOf (.submit place) = rest.idxOf (.submit place) + 1 :=
        next ▸ idxOf_front (by rintro ⟨⟩)
      cases sent : submission.phase.sent with
      | true =>
          exact Or.inl (nearer present present (TaskPhase.queued_of_sent sent) (by dsimp only; omega))
      | false =>
          refine Or.inr ⟨fun other found => ?_, level present present fun _ => ?_⟩
          · obtain rfl := Option.some.inj (present.symm.trans found)
            exact sent
          · dsimp only
            omega
  | drained running empty gone =>
      refine Or.inr ⟨fun other found => ?_, same rfl present⟩
      obtain rfl := Option.some.inj (present.symm.trans found)
      cases phase : submission.phase with
      | queued => exact absurd (empty ▸ listed phase) List.not_mem_nil
      | _ => rfl
  | exited exiting =>
      have moved : (queue.submissions.map Submission.abandon)[place]? = some submission.abandon := by
        rw [List.getElem?_map, present, Option.map_some]
      cases phase : submission.phase with
      | queued =>
          have abandoned : submission.abandon.phase = .dropped := by simp only [Submission.abandon, phase]
          exact Or.inl (lower present moved (by rw [abandoned]; rintro ⟨⟩)
            (by simp [abandoned, phase, Queue.phaseRank]))
      | _ =>
          have kept : submission.abandon = submission := by simp only [Submission.abandon, phase]
          refine Or.inr ⟨fun other found => ?_, level present (kept ▸ moved) fun queued => ?_⟩
          · obtain rfl := Option.some.inj (present.symm.trans found)
            rw [phase]
            rfl
          · cases phase.symm.trans queued
  | acquired other old _ found at_phase | gaveUp other old found at_phase | replied other old _ _ found at_phase
  | released other old _ found at_phase =>
      exact turn present found rfl rfl (by rintro ⟨⟩) (by simp [at_phase, Queue.phaseRank])
  | cleaned other old left found at_phase =>
      refine turn present found rfl rfl ?_ ?_
      · cases left <;> rintro ⟨⟩
      · cases left <;> simp [at_phase, Queue.phaseRank, TaskPhase.cleaned]
  | stepped other label old process next found at_process taken =>
      by_cases here : other = place
      · obtain rfl := own found here
        subst here
        exact stepped wound present cancelled at_process taken (put_here present)
      · exact Or.inr ⟨fun same => absurd same here, same rfl (put_elsewhere present here)⟩
  | cancelled _ chosen asked =>
      refine Or.inr ⟨?_, ?_⟩
      · cases act with
        | cancel | cancelAll | cancelHandle => trivial
        | _ => cases asked
      · have moved : (queue.cancelAt program chosen).submissions[place]? =
            some (if chosen place submission then submission.cancelNow program else submission) := by
          simp only [Queue.cancelAt, List.getElem?_mapIdx, present, Option.map_some]
        rw [queueHeight, queueHeight, present, moved]
        dsimp only
        split_ifs
        · exact cancelled_level _ _ _
        · exact le_rfl

/-- The dispatcher takes the next message as long as it has one. -/
theorem receives (sound : queue.Sound config) (running : queue.dispatcher = .running) (waiting : queue.channel ≠ []) :
    (Queue.step config program queue .receive).isSome = true := by
  cases channel : queue.channel with
  | nil => exact absurd channel waiting
  | cons message rest =>
      cases message with
      | shutdown => simp only [Queue.step, Queue.receive, running, channel, Option.isSome_some]
      | submit other =>
          obtain ⟨next, found, _⟩ := sound.queued (channel ▸ List.mem_cons_self)
          simp only [Queue.step, Queue.receive, running, channel, found, Option.map_some, Option.isSome_some]

/-- A cancelled task that has no answer yet can come nearer to it without any slot and without any other task. -/
theorem Wound.moves (wound : winding.Wound config place queue) (pending : ¬ winding.Answered place queue) :
    ∃ act, ¬ winding.Elsewhere place queue act ∧ (Queue.step config program queue act).isSome = true := by
  obtain ⟨submission, present, accepted, cancelled⟩ := wound.cancelled
  have member := List.mem_of_getElem? present
  have unanswered : submission.resolved = false := by
    by_contra resolved
    exact pending ⟨submission, present, Or.inl (Bool.not_eq_false _ ▸ resolved)⟩
  have single := wound.sound.replies submission member
  have open_ : submission.phase.answered = false := by
    by_contra answered
    rw [Bool.not_eq_false] at answered
    rw [answered] at single
    simp only [Submission.resolved, Bool.or_eq_false_iff, Bool.not_eq_false', List.isEmpty_iff] at unanswered
    rw [unanswered.1] at single
    cases single
  cases at_phase : submission.phase with
  | locking | sending | refused =>
      rw [at_phase] at accepted
      cases accepted
  | cleaning | releasing | finished =>
      rw [at_phase] at open_
      cases open_
  | dropped => simp [Submission.resolved, at_phase] at unanswered
  | queued =>
      have listed := wound.sound.listed present at_phase
      have sent : submission.phase.sent = true := by rw [at_phase]; rfl
      have here : ¬ ∀ other ∈ queue.submissions[place]?, other.phase.sent = false := by
        intro elsewhere
        cases sent.symm.trans (elsewhere submission present)
      cases dispatcher : queue.dispatcher with
      | running => exact ⟨.receive, here, receives wound.sound dispatcher (List.ne_nil_of_mem listed)⟩
      | exiting => exact ⟨.exit, here, by simp only [Queue.step, Queue.exit, dispatcher, Option.isSome_some]⟩
      | exited =>
          rw [wound.sound.closed dispatcher] at listed
          cases listed
  | waiting =>
      refine ⟨.giveUp place, fun apart => apart rfl, ?_⟩
      simp only [Queue.step, present, Option.bind_some, Queue.giveUp, at_phase, cancelled, if_true, Option.isSome_some]
  | running process =>
      cases returned : program.outcome process with
      | some result =>
          refine ⟨.reply place, fun apart => apart rfl, ?_⟩
          simp only [Queue.step, present, Option.bind_some, Queue.reply, at_phase, returned, Option.map_some,
            Option.isSome_some]
      | none =>
          obtain ⟨fit, told⟩ := wound.processes submission member process (by rw [at_phase]; rfl)
          have alive : ¬ winding.lost process :=
            fun lost => pending ⟨submission, present, Or.inr ⟨process, at_phase, lost⟩⟩
          obtain ⟨label, busy, enabled⟩ :=
            winding.moves submission.task queue.store process fit (told cancelled) alive returned
          refine ⟨.step place label, fun lingers => busy (lingers rfl submission present process at_phase), ?_⟩
          simpa only [Queue.step, present, Option.bind_some, Queue.advance, at_phase, TaskPhase.process,
            Option.isSome_map] using enabled

variable {store : Store} {guard : Queue Store Process Job Value → QueueAct Job Label → Prop}
  {acts : List (QueueAct Job Label)}

/-- Whenever a submitted task is cancelled, the queue is wound for it. -/
theorem run_wound (winding : Winding program Rank)
    (run : Run (Queue.step config program) guard (Queue.new config store) acts queue)
    (present : queue.submissions[place]? = some submission) (accepted : submission.phase.accepted = true)
    (cancelled : submission.cancelled = true) : winding.Wound config place queue := by
  have told := run.invariant
    (fun (state : Queue Store Process Job Value) => ∀ submission ∈ state.submissions,
      ∀ process ∈ submission.phase.process,
        winding.fit process ∧ (submission.cancelled = true → winding.told process))
    (fun _ _ _ all _ taken => told_processes (Queue.step_move taken) all) (by rintro _ ⟨⟩)
  exact ⟨Queue.run_sound run (Queue.new_sound config store), told, submission, present, accepted, cancelled⟩

/-- The acts of the task are never blocked before its answer. -/
theorem Wound.unblocked (wound : winding.Wound config place queue)
    (run : Run (Queue.step config program) guard queue acts after) (pending : ¬ winding.Answered place after) :
    ∃ act, ¬ winding.Elsewhere place after act ∧ (Queue.step config program after act).isSome = true :=
  (run.invariant (winding.Wound config place) (fun _ _ _ wound _ taken => wound.step (Queue.step_move taken))
    wound).moves pending

/-- The task comes to its answer. -/
theorem Wound.settles [WellFoundedLT Rank] (wound : winding.Wound config place queue) :
    Settles (Queue.step config program) (fun _ _ => True) (winding.Elsewhere place) (winding.Answered place)
      queue := by
  have descends : Descends (Queue.step config program) (fun _ _ => True) (winding.Elsewhere place)
      (winding.Answered place) (winding.Wound config place) (winding.queueHeight place) := by
    refine ⟨?_, ?_, ?_⟩
    · exact fun _ _ _ wound _ taken => wound.step (Queue.step_move taken)
    · exact fun _ _ _ wound _ taken => wound.falls (Queue.step_move taken)
    · intro state wound pending
      obtain ⟨act, here, enabled⟩ : ∃ act, ¬ winding.Elsewhere place state act ∧
          (Queue.step config program state act).isSome = true := wound.moves pending
      exact ⟨act, trivial, here, enabled⟩
  exact descends.settles wound

end Winding

end FastDownloader
