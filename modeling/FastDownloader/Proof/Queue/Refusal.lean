/-
This file proves exactly when a refused submit call leaves the map of the tokens as it would be without the call.
-/

import FastDownloader.Foundation.Entries
import FastDownloader.Proof.Queue.Cancel

namespace FastDownloader

open Foundation

variable {Store Process Job Label Value : Type*}

/-- This is the insertion of the token at the place. -/
def QueueAct.inserts (place : Nat) : QueueAct Job Label → Bool
  | .insert other => other == place
  | _ => false

namespace Queue

variable {config : QueueConfig} {program : TaskProgram Store Process Job Label Value}
  {queue after : Queue Store Process Job Value} {act : QueueAct Job Label}

/-- An act writes the entry of the id of its submission, or it removes this entry. -/
def write (queue : Queue Store Process Job Value) : QueueAct Job Label → Option (Nat × Option Nat)
  | .insert place => queue.submissions[place]?.map fun submission => (submission.task.id, some place)
  | .cleanup place => queue.submissions[place]?.map fun submission => (submission.task.id, none)
  | _ => none

/-- All other insertions and removals of the run make these entries. -/
def entriesWithout (queue : Queue Store Process Job Value) (acts : List (QueueAct Job Label)) (place : Nat) :
    Nat → Option Nat :=
  writeAll (fun _ => none) ((acts.filter fun act => !act.inserts place).filterMap queue.write)

/-- The map is as it would be without the submission at this place. An entry of its id belongs to a task that may still
run, and without such a task a cancellation does not find the id. -/
structure Unmoved (program : TaskProgram Store Process Job Label Value) (queue : Queue Store Process Job Value)
    (acts : List (QueueAct Job Label)) (place id : Nat) : Prop where
  same : queue.cancels = queue.entriesWithout acts place
  absent : ∀ owner, queue.cancels id = some owner →
    ∃ submission, queue.submissions[owner]? = some submission ∧ submission.phase.owning = true
  missing : (∀ submission ∈ queue.submissions, submission.task.id = id → submission.phase.owning = false) →
    (queue.cancel program id).1 = .error (.taskNotFound id)

/-- The last change of the entry of the id is not the insertion of a token whose submit call was refused or whose
message was dropped. -/
def Reclaimed (queue : Queue Store Process Job Value) (acts : List (QueueAct Job Label)) (id : Nat) : Prop :=
  ∀ last ∈ lastWrite (acts.filterMap queue.write) id, ∀ owner ∈ last.2, ∀ submission ∈ queue.submissions[owner]?,
    submission.phase.stranded = false

/-- Each task stays at its place through a whole run. -/
theorem run_persists {guard : Queue Store Process Job Value → QueueAct Job Label → Prop}
    {last : Queue Store Process Job Value} {acts : List (QueueAct Job Label)}
    (run : Run (Queue.step config program) guard queue acts last) (sound : queue.Sound config) {place : Nat}
    {old : Submission Process Job Value} (present : queue.submissions[place]? = some old) :
    ∃ new : Submission Process Job Value, last.submissions[place]? = some new ∧ new.task = old.task := by
  induction run generalizing old with
  | nil => exact ⟨old, present, rfl⟩
  | cons _ taken _ ih =>
      have move := step_move taken
      obtain ⟨middle, there, turn⟩ := move.persists sound.posted present
      obtain ⟨new, found, same⟩ := ih (move.sound sound) there
      exact ⟨new, found, same.trans turn.task⟩

/-- The map is what the acts of the run write. -/
theorem run_entries {guard : Queue Store Process Job Value → QueueAct Job Label → Prop}
    {last : Queue Store Process Job Value} {acts : List (QueueAct Job Label)}
    (run : Run (Queue.step config program) guard queue acts last) (sound : queue.Sound config) :
    last.cancels = writeAll queue.cancels (acts.filterMap last.write) := by
  induction run with
  | nil => rfl
  | @cons first middle last act acts admitted taken rest ih =>
      have move := step_move taken
      have whole := Run.cons admitted taken rest
      rw [ih (move.sound sound)]
      have quiet : last.write act = none → middle.cancels = first.cancels →
          writeAll middle.cancels (acts.filterMap last.write) =
            writeAll first.cancels ((act :: acts).filterMap last.write) := by
        intro unwritten kept
        rw [List.filterMap_cons_none unwritten, kept]
      cases move with
      | inserted place submission present at_phase =>
          obtain ⟨new, found, same⟩ := run_persists whole sound present
          have written : last.write (.insert place : QueueAct Job Label) = some (submission.task.id, some place) := by
            rw [write, found, Option.map_some, same]
          rw [List.filterMap_cons_some written, writeAll, writeAll, List.foldl_cons]
          congr 1
          funext id
          rw [Function.update_apply]
      | cleaned place submission left present at_phase =>
          obtain ⟨new, found, same⟩ := run_persists whole sound present
          have written : last.write (.cleanup place : QueueAct Job Label) = some (submission.task.id, none) := by
            rw [write, found, Option.map_some, same]
          rw [List.filterMap_cons_some written, writeAll, writeAll, List.foldl_cons]
          congr 1
          funext id
          rw [Function.update_apply]
      | cancelled _ _ asked =>
          apply quiet _ rfl
          cases act <;> first | rfl | cases asked
      | _ => exact quiet rfl rfl

/-- The writes of the other acts are the writes that do not set this place. -/
theorem writes_without (queue : Queue Store Process Job Value) (acts : List (QueueAct Job Label)) (place : Nat) :
    (acts.filter fun act => !act.inserts place).filterMap queue.write =
      (acts.filterMap queue.write).filter fun write => write.2 != some place := by
  rw [List.filterMap_filter, List.filter_filterMap]
  congr 1
  funext act
  cases act with
  | insert other =>
      cases present : queue.submissions[other]? with
      | none => simp only [write, present, Option.map_none, ite_self, Option.filter_none]
      | some submission =>
          by_cases same : other = place
          · subst same
            simp [write, present, QueueAct.inserts, Option.filter]
          · simp [write, present, QueueAct.inserts, Option.filter, same]
  | cleanup other =>
      cases present : queue.submissions[other]? with
      | none => simp only [write, present, Option.map_none, ite_self, Option.filter_none]
      | some submission => simp [write, present, QueueAct.inserts, Option.filter]
  | _ => rfl

/-- An entry of the map is the last write of its id. -/
theorem last_of_entry {acts : List (QueueAct Job Label)}
    (entries : queue.cancels = writeAll (fun _ => none) (acts.filterMap queue.write)) {id owner : Nat}
    (entry : queue.cancels id = some owner) :
    ∃ last, lastWrite (acts.filterMap queue.write) id = some last ∧ last.2 = some owner := by
  rw [entries, writeAll_eq_lastWrite] at entry
  cases found : lastWrite (acts.filterMap queue.write) id with
  | none =>
      rw [found] at entry
      cases entry
  | some last =>
      rw [found] at entry
      exact ⟨last, rfl, entry⟩

/-- A refused submit call leaves no trace in the map exactly when the last change of the entry of its id is not the
insertion of a token that nobody will use. -/
theorem refusal_unmoved_iff (config : QueueConfig) (program : TaskProgram Store Process Job Label Value) (store : Store)
    (acts : List (QueueAct Job Label)) (queue : Queue Store Process Job Value)
    (run : Run (Queue.step config program) (fun _ _ => True) (Queue.new config store) acts queue) (place : Nat)
    (submission : Submission Process Job Value) (present : queue.submissions[place]? = some submission)
    (refused : submission.phase = .refused) :
    queue.Unmoved program acts place submission.task.id ↔ queue.Reclaimed acts submission.task.id := by
  have sound : queue.Sound config := run_sound run (Queue.new_sound config store)
  have entries : queue.cancels = writeAll (fun _ => none) (acts.filterMap queue.write) :=
    run_entries run (Queue.new_sound config store)
  constructor
  · intro unmoved last found owner written inserted there
    have entry : queue.cancels submission.task.id = some owner := by
      rw [entries, writeAll_eq_lastWrite, show lastWrite _ _ = some last from found]
      exact written
    obtain ⟨holder, held, owning⟩ := unmoved.absent owner entry
    obtain rfl := Option.some.inj (held.symm.trans there)
    rw [TaskPhase.owning, Bool.and_eq_true, Bool.not_eq_true'] at owning
    exact owning.2
  · intro reclaimed
    have absent : ∀ owner, queue.cancels submission.task.id = some owner →
        ∃ holder, queue.submissions[owner]? = some holder ∧ holder.phase.owning = true := by
      intro owner entry
      obtain ⟨holder, held, _, entered⟩ := sound.cancels _ _ entry
      obtain ⟨last, found, written⟩ := last_of_entry entries entry
      have used := reclaimed last found owner written holder held
      refine ⟨holder, held, ?_⟩
      rw [TaskPhase.owning, entered, used]
      rfl
    refine ⟨?_, absent, fun unowned => ?_⟩
    · rw [entriesWithout, writes_without, writeAll_filter, entries]
      intro id last found
      rw [bne_iff_ne]
      intro written
      have entry : queue.cancels id = some place := by
        rw [entries, writeAll_eq_lastWrite, show lastWrite _ _ = some last from found]
        exact written
      obtain ⟨holder, held, named, _⟩ := sound.cancels _ _ entry
      obtain rfl := Option.some.inj (held.symm.trans present)
      rw [← named] at found
      have used := reclaimed last found place written _ held
      rw [refused] at used
      cases used
    · have free : queue.cancels submission.task.id = none := by
        rw [Option.eq_none_iff_forall_not_mem]
        intro owner entry
        obtain ⟨holder, held, owning⟩ := absent owner entry
        obtain ⟨same, found, named, _⟩ := sound.cancels _ _ entry
        obtain rfl := Option.some.inj (held.symm.trans found)
        cases (unowned _ (List.mem_of_getElem? held) named).symm.trans owning
      unfold cancel lookup
      rw [free]
      rfl

end Queue

instance {Store Process Job Label Value : Type*} (queue : Queue Store Process Job Value)
    (acts : List (QueueAct Job Label)) (id : Nat) : Decidable (queue.Reclaimed acts id) := by
  unfold Queue.Reclaimed
  infer_instance

/-- The id 7 belongs to two tasks. The first one cleans up before the second one is refused. -/
def reclaimedActs : List (QueueAct SavedTask ReportingEvent) :=
  submitActs 7 0 ++ [.receive] ++ failActs 0 ++ [.submit 7 badTask, .insert 1, .cleanup 0, .shutdown, .receive, .exit,
    .refuse 1]

theorem Queue.refusal_unmoved_iff_reclaimed :
    ((queueRun ⟨1, 1⟩ reclaimedActs).get rfl).Unmoved (reporting DownloadState {} .through anyHasher) reclaimedActs
      1 7 := by
  have run : Run (Queue.step ⟨1, 1⟩ (reporting DownloadState {} .through anyHasher)) (fun _ _ => True)
      (emptyQueue ⟨1, 1⟩) reclaimedActs ((queueRun ⟨1, 1⟩ reclaimedActs).get rfl) :=
    run_of_replay (by decide +kernel) (Option.some_get _).symm
  exact (Queue.refusal_unmoved_iff _ _ _ _ _ run 1 _ rfl rfl).mpr (by decide +kernel)

/-- The task is submitted after a shutdown of the queue. -/
def lateActs : List (QueueAct SavedTask ReportingEvent) :=
  [.shutdown, .receive, .exit, .submit 0 badTask, .insert 0, .refuse 0]

/-- The entry of the refused task stays in the map. -/
theorem Queue.refusal_not_unmoved :
    ¬ ∀ acts queue, Run (Queue.step ⟨1, 1⟩ (reporting DownloadState {} .through anyHasher)) (fun _ _ => True)
      (emptyQueue ⟨1, 1⟩) acts queue → ∀ place submission, queue.submissions[place]? = some submission →
        submission.phase = .refused →
          queue.Unmoved (reporting DownloadState {} .through anyHasher) acts place submission.task.id := by
  intro always
  have run : Run (Queue.step ⟨1, 1⟩ (reporting DownloadState {} .through anyHasher)) (fun _ _ => True)
      (emptyQueue ⟨1, 1⟩) lateActs ((queueRun ⟨1, 1⟩ lateActs).get rfl) :=
    run_of_replay (by decide +kernel) (Option.some_get _).symm
  obtain ⟨submission, present, owning⟩ := (always _ _ run 0 _ rfl rfl).absent 0 rfl
  obtain rfl := Option.some.inj present
  cases owning

end FastDownloader
