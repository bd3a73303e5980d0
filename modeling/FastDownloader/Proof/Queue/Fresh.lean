/-
This file proves exactly when the numbers that a queue gives out are apart from the ids that its callers choose.
-/

import FastDownloader.Proof.Queue.Lifecycle

namespace FastDownloader

open Foundation

variable {Store Process Job Label Value : Type*}

namespace QueueAct

/-- The submit call leaves its id to the queue. -/
def numbered : QueueAct Job Label → Bool
  | .submit id _ => id == 0
  | _ => false

/-- The submit call has an id of its own. -/
def chosen : QueueAct Job Label → Option Nat
  | .submit id _ => if id = 0 then none else some id
  | _ => none

end QueueAct

/-- The callers have chosen these ids, in this order. -/
def chosenIds (acts : List (QueueAct Job Label)) : List Nat := acts.filterMap QueueAct.chosen

namespace Queue

variable {config : QueueConfig} {program : TaskProgram Store Process Job Label Value}
  {queue after : Queue Store Process Job Value} {act : QueueAct Job Label}

/-- A number that the queue gives out is the id of no live task, and an insertion replaces no entry that is still in
use. -/
def Fresh (queue : Queue Store Process Job Value) : QueueAct Job Label → Prop
  | .submit id _ => id = 0 → ∀ submission ∈ queue.submissions,
      submission.phase.accepted = true → submission.resolved = false → submission.task.id ≠ queue.nextId
  | .insert place => ∀ owner ∈ queue.submissions[place]?, ∀ other ∈ queue.cancels owner.task.id,
      ∀ submission ∈ queue.submissions[other]?, submission.resolved = true
  | _ => True

/-- After some numbered calls and some chosen ids, every submission has a number or a chosen id, and no two have one
id. -/
structure Counted (queue : Queue Store Process Job Value) (count : Nat) (chosen : List Nat) : Prop where
  next : queue.nextId = (count + 1) % 2 ^ 64
  origin : ∀ submission ∈ queue.submissions,
    submission.task.id ∈ chosen ∨ ∃ earlier < count, submission.task.id = (earlier + 1) % 2 ^ 64
  apart : (queue.submissions.map fun submission => submission.task.id).Nodup

/-- The next number is apart from the ids of all submissions. -/
theorem Counted.unused {count : Nat} {chosen : List Nat} (numbered : queue.Counted count chosen)
    (room : count < 2 ^ 64) (above : ∀ id ∈ chosen, count + 1 < id)
    {submission : Submission Process Job Value} (member : submission ∈ queue.submissions) :
    submission.task.id ≠ queue.nextId := by
  have next := numbered.next
  rcases numbered.origin submission member with picked | ⟨earlier, before, counted⟩
  · have bound := above _ picked
    have small := Nat.mod_le (count + 1) (2 ^ 64)
    omega
  · have small : (earlier + 1) % 2 ^ 64 = earlier + 1 := Nat.mod_eq_of_lt (by omega)
    rcases Nat.lt_or_eq_of_le room with inside | last
    · have same : (count + 1) % 2 ^ 64 = count + 1 := Nat.mod_eq_of_lt inside
      omega
    · have wrapped : (count + 1) % 2 ^ 64 = 0 := by
        rw [show count + 1 = 2 ^ 64 from last, Nat.mod_self]
      omega

/-- No entry of an id is there when a submission of this id inserts its token. -/
theorem Counted.fresh {count : Nat} {chosen : List Nat} (numbered : queue.Counted count chosen)
    (sound : queue.Sound config) (room : act.numbered = true → count < 2 ^ 64 ∧ ∀ id ∈ chosen, count + 1 < id)
    (taken : QueueMove config program queue act after) : queue.Fresh act := by
  cases taken with
  | submitted id job =>
      intro zero submission member _ _
      obtain ⟨inside, above⟩ := room (beq_iff_eq.mpr zero)
      exact numbered.unused inside above member
  | inserted place owner present at_phase =>
      intro again found other entry submission there
      obtain rfl := Option.some.inj (present.symm.trans found)
      obtain ⟨holder, held, named, entered⟩ := sound.cancels _ _ entry
      have inside : other < (queue.submissions.map fun submission => submission.task.id).length := by
        rw [List.length_map]
        exact (List.getElem?_eq_some_iff.mp held).1
      have same : other = place := by
        apply (List.getElem?_inj inside numbered.apart).mp
        rw [List.getElem?_map, List.getElem?_map, held, present, Option.map_some, Option.map_some, named]
      subst same
      obtain rfl := Option.some.inj (held.symm.trans present)
      rw [at_phase] at entered
      cases entered
  | cancelled _ _ asked => cases act <;> trivial
  | _ => trivial

/-- A step that begins no submission keeps the ids and the counter. -/
theorem Counted.kept {count : Nat} {chosen : List Nat} (numbered : queue.Counted count chosen)
    (move : QueueMove config program queue act after) (posted : queue.Posted)
    (same : after.submissions.length = queue.submissions.length) : after.Counted count chosen := by
  have ids : (after.submissions.map fun submission => submission.task.id) =
      queue.submissions.map fun submission => submission.task.id :=
    move.map_eq posted _ (fun turn => congrArg QueueTask.id turn.task) same
  refine ⟨?_, fun submission member => ?_, ids ▸ numbered.apart⟩
  · cases move with
    | submitted => simp only [submit, List.length_append, List.length_singleton, Nat.add_eq_left, one_ne_zero] at same
    | _ => exact numbered.next
  · have listed : submission.task.id ∈ queue.submissions.map fun submission => submission.task.id :=
      ids ▸ List.mem_map_of_mem member
    obtain ⟨old, there, named⟩ := List.mem_map.mp listed
    rw [← named]
    exact numbered.origin old there

/-- A submission whose id no other one has keeps the ids apart. -/
theorem apart_submit (apart : (queue.submissions.map fun submission => submission.task.id).Nodup) {id : Nat} (job : Job)
    (unused : ∀ submission ∈ queue.submissions, submission.task.id ≠ if id = 0 then queue.nextId else id) :
    ((queue.submit id job).submissions.map fun submission => submission.task.id).Nodup := by
  simp only [submit, List.map_append, List.map_cons, List.map_nil]
  rw [List.nodup_append]
  refine ⟨apart, List.pairwise_singleton _ _, fun id listed other added same => ?_⟩
  rw [List.mem_singleton.mp added] at same
  obtain ⟨submission, member, named⟩ := List.mem_map.mp listed
  exact unused submission member (named.trans same)

/-- A numbered call takes the next number. -/
theorem Counted.count_up {count : Nat} {chosen : List Nat} (numbered : queue.Counted count chosen)
    (room : count < 2 ^ 64) (above : ∀ id ∈ chosen, count + 1 < id) (job : Job) :
    (queue.submit 0 job).Counted (count + 1) chosen where
  next := by
    show (queue.nextId + 1) % 2 ^ 64 = (count + 1 + 1) % 2 ^ 64
    rw [numbered.next, Nat.mod_add_mod]
  origin submission member := by
    rcases List.mem_append.mp member with old | added
    · rcases numbered.origin submission old with picked | ⟨earlier, before, counted⟩
      · exact Or.inl picked
      · exact Or.inr ⟨earlier, by omega, counted⟩
    · rw [List.mem_singleton.mp added]
      exact Or.inr ⟨count, by omega, numbered.next⟩
  apart := apart_submit numbered.apart job fun _ member => numbered.unused room above member

/-- A chosen id above all numbers is apart from the ids of all submissions. -/
theorem Counted.choose {count : Nat} {chosen : List Nat} (numbered : queue.Counted count chosen) {id : Nat}
    (above : count < id) (unpicked : id ∉ chosen) (job : Job) :
    (queue.submit id job).Counted count (id :: chosen) := by
  have given : ¬ id = 0 := by omega
  refine ⟨?_, fun submission member => ?_, apart_submit numbered.apart job fun submission member => ?_⟩
  · simp only [submit, if_neg given]
    exact numbered.next
  · rcases List.mem_append.mp member with old | added
    · exact (numbered.origin submission old).imp_left (List.mem_cons_of_mem id)
    · rw [List.mem_singleton.mp added]
      simp only [if_neg given]
      exact Or.inl List.mem_cons_self
  · rw [if_neg given]
    rcases numbered.origin submission member with picked | ⟨earlier, before, counted⟩
    · rintro rfl
      exact unpicked picked
    · have small := Nat.mod_le (earlier + 1) (2 ^ 64)
      omega

theorem quiet_of_length (move : QueueMove config program queue act after)
    (same : after.submissions.length = queue.submissions.length) : act.numbered = false ∧ act.chosen = none := by
  cases move with
  | submitted => simp only [submit, List.length_append, List.length_singleton, Nat.add_eq_left, one_ne_zero] at same
  | cancelled _ _ asked => cases act <;> first | exact ⟨rfl, rfl⟩ | cases asked
  | _ => exact ⟨rfl, rfl⟩

/-- When the chosen ids are apart and above the number of the numbered calls, every number is fresh. -/
theorem Counted.run_fresh {guard : Queue Store Process Job Value → QueueAct Job Label → Prop}
    {last : Queue Store Process Job Value} {acts : List (QueueAct Job Label)}
    (run : Run (Queue.step config program) guard queue acts last) {count : Nat} {chosen : List Nat}
    (numbered : queue.Counted count chosen) (sound : queue.Sound config)
    (distinct : (chosenIds acts ++ chosen).Nodup) (room : count + acts.countP QueueAct.numbered ≤ 2 ^ 64)
    (above : ∀ id ∈ chosenIds acts ++ chosen, count + acts.countP QueueAct.numbered < id) :
    Admitted (Queue.step config program) Fresh queue acts := by
  induction run generalizing count chosen with
  | nil => trivial
  | @cons first middle last act acts _ taken rest ih =>
      have move := step_move taken
      have fresh : first.Fresh act := by
        apply numbered.fresh sound _ move
        intro counts
        rw [List.countP_cons_of_pos counts] at room above
        refine ⟨by omega, fun id picked => ?_⟩
        have bound := above id (List.mem_append_right _ picked)
        omega
      refine ⟨fresh, fun next found => ?_⟩
      obtain rfl := Option.some.inj (taken.symm.trans found)
      rcases move.length with same | ⟨id, job, rfl, held, rfl⟩
      · obtain ⟨uncounted, unchosen⟩ := quiet_of_length move same
        have ids : chosenIds (act :: acts) = chosenIds acts := List.filterMap_cons_none unchosen
        rw [ids] at distinct above
        rw [List.countP_cons_of_neg (by rw [uncounted]; exact Bool.false_ne_true)] at room above
        exact ih (numbered.kept move sound.posted same) (move.sound sound) distinct room above
      · by_cases given : id = 0
        · subst given
          have ids : chosenIds (.submit 0 job :: acts) = chosenIds acts := List.filterMap_cons_none rfl
          rw [ids] at distinct above
          rw [List.countP_cons_of_pos rfl] at room above
          apply ih (numbered.count_up (by omega) (fun id picked => ?_) job) (move.sound sound) distinct (by omega)
          · intro id listed
            have bound := above id listed
            omega
          · have bound := above id (List.mem_append_right _ picked)
            omega
        · have ids : chosenIds (.submit id job :: acts) = id :: chosenIds acts :=
            List.filterMap_cons_some (if_neg given)
          rw [ids, List.cons_append] at distinct above
          rw [List.countP_cons_of_neg (by rw [QueueAct.numbered, beq_iff_eq]; exact given)] at room above
          have swapped := List.perm_middle.nodup_iff.mpr distinct
          have unpicked : id ∉ chosen := fun listed =>
            (List.nodup_cons.mp distinct).1 (List.mem_append_right _ listed)
          have bound := above id List.mem_cons_self
          apply ih (numbered.choose (by omega) unpicked job) (move.sound sound) swapped room
          intro other listed
          exact above other (List.perm_middle.mem_iff.mp listed)

/-- One submit call inserts its token and sends its message. Then the queue numbers further calls. -/
def crowding (id : Nat) (job : Job) (more : Nat) : List (QueueAct Job Label) :=
  [.submit id job, .insert 0, .send 0] ++ List.replicate more (.submit 0 job)

/-- The further calls advance the counter and leave the first submission as it is. -/
theorem run_replicate (config : QueueConfig) (program : TaskProgram Store Process Job Label Value) (job : Job)
    (more : Nat) {first : Submission Process Job Value} (held : queue.held = true)
    (present : queue.submissions[0]? = some first) (word : queue.nextId < 2 ^ 64) :
    ∃ last, Run (Queue.step config program) (fun _ _ => True) queue (List.replicate more (.submit 0 job)) last ∧
      last.held = true ∧ last.submissions[0]? = some first ∧ last.nextId = (queue.nextId + more) % 2 ^ 64 := by
  induction more generalizing queue with
  | zero => exact ⟨queue, .nil _, held, present, (Nat.mod_eq_of_lt word).symm⟩
  | succ more ih =>
      have kept : (queue.submit 0 job).submissions[0]? = some first := by
        obtain ⟨inside, _⟩ := List.getElem?_eq_some_iff.mp present
        rw [submit, List.getElem?_append_left inside]
        exact present
      have next : (queue.submit 0 job).nextId = (queue.nextId + 1) % 2 ^ 64 := rfl
      obtain ⟨last, run, alive, there, counted⟩ := @ih (queue.submit 0 job) held kept (Nat.mod_lt _ (by decide))
      refine ⟨last, .cons trivial (if_pos held) run, alive, there, ?_⟩
      rw [counted, next, Nat.mod_add_mod, Nat.add_assoc, Nat.add_comm 1 more]

/-- This is the queue whose only submission is in the channel. -/
def oneQueued (config : QueueConfig) (store : Store) (id : Nat) (job : Job) :
    Queue Store Process Job Value where
  submissions := [⟨⟨if id = 0 then 1 else id, job⟩, .queued, false, []⟩]
  channel := [.submit 0]
  dispatcher := .running
  cancels := fun other => if other = (if id = 0 then 1 else id) then some 0 else none
  permits := config.slots
  nextId := if id = 0 then 2 else 1
  held := true
  store := store

theorem run_oneQueued (config : QueueConfig) (program : TaskProgram Store Process Job Label Value) (store : Store)
    (id : Nat) (job : Job) : Run (Queue.step config program) (fun _ _ => True) (Queue.new config store)
      [.submit id job, .insert 0, .send 0] (oneQueued config store id job) := by
  have room : 0 < config.capacity := Nat.lt_of_lt_of_le Nat.one_pos (Nat.le_max_right _ _)
  refine .cons trivial rfl (.cons trivial rfl (.cons trivial ?_ (.nil _)))
  simp only [step, new, submit, put, List.nil_append, List.set_cons_zero, List.getElem?_cons_zero, Option.bind_some,
    send, List.length_nil, room, ne_eq, reduceCtorEq, not_false_eq_true, and_self, if_true]
  rfl

/-- The counter meets the id of the submission that is still in the channel. -/
theorem crowding_collides (config : QueueConfig) (program : TaskProgram Store Process Job Label Value) (store : Store)
    (job : Job) {id more : Nat}
    (meets : ((if id = 0 then 2 else 1) + more) % 2 ^ 64 = if id = 0 then 1 else id) :
    ∃ last, Run (Queue.step config program) (fun _ _ => True) (Queue.new config store)
        (crowding id job (more + 1)) last ∧
      ¬ Admitted (Queue.step config program) Fresh (Queue.new config store) (crowding id job (more + 1)) := by
  have word : (oneQueued config store id job : Queue Store Process Job Value).nextId < 2 ^ 64 := by
    unfold oneQueued
    dsimp only
    split_ifs <;> decide
  obtain ⟨middle, run, held, present, counted⟩ := run_replicate config program job more rfl rfl word
  have begun := (run_oneQueued config program store id job).append run
  have whole : crowding id job (more + 1) =
      ([.submit id job, .insert 0, .send 0] ++ List.replicate more (.submit 0 job)) ++
        [(.submit 0 job : QueueAct Job Label)] := by
    rw [crowding, List.replicate_succ', List.append_assoc]
  rw [whole]
  refine ⟨_, begun.append (.cons trivial (if_pos held) (.nil _)), fun admitted => ?_⟩
  have fresh := (begun.admitted_rest admitted).1 rfl _ (List.mem_of_getElem? present) rfl rfl
  exact fresh (meets.symm.trans counted.symm)

theorem chosenIds_crowding (id : Nat) (job : Job) (more : Nat) :
    chosenIds (crowding id job more : List (QueueAct Job Label)) = if id = 0 then [] else [id] := by
  have later : (List.replicate more (.submit 0 job : QueueAct Job Label)).filterMap QueueAct.chosen = [] :=
    List.filterMap_replicate_of_none rfl
  rw [chosenIds, crowding, List.filterMap_append, later, List.append_nil]
  split_ifs with zero
  · rw [zero]
    rfl
  · have first : QueueAct.chosen (.submit id job : QueueAct Job Label) = some id := if_neg zero
    rw [List.filterMap_cons_some first]
    rfl

theorem numbered_crowding (id : Nat) (job : Job) (more : Nat) :
    (crowding id job more : List (QueueAct Job Label)).countP QueueAct.numbered =
      (if id = 0 then 1 else 0) + more := by
  have later : (List.replicate more (.submit 0 job : QueueAct Job Label)).countP QueueAct.numbered = more := by
    rw [List.countP_replicate]
    exact if_pos rfl
  rw [crowding, List.countP_append, later]
  congr 1
  simp only [List.countP_cons, List.countP_nil, QueueAct.numbered, beq_iff_eq, Bool.false_eq_true, if_false, zero_add]

/-- Whatever calls the callers make with distinct ids from a list and a number of calls without an id, every number is
fresh: this holds exactly when the queue never numbers a call with one of these ids and its counter does not come
round. -/
theorem numbers_fresh_iff (config : QueueConfig) (program : TaskProgram Store Process Job Label Value) (store : Store)
    (job : Job) (ids : List Nat) (words : ∀ id ∈ ids, id ≠ 0 ∧ id < 2 ^ 64) (count : Nat) :
    (∀ acts queue, Run (Queue.step config program) (fun _ _ => True) (Queue.new config store) acts queue →
        (chosenIds acts).Nodup → chosenIds acts ⊆ ids → acts.countP QueueAct.numbered ≤ count →
          Admitted (Queue.step config program) Fresh (Queue.new config store) acts) ↔
      count ≤ 2 ^ 64 ∧ ∀ id ∈ ids, count < id := by
  constructor
  · intro always
    refine ⟨?_, fun id member => ?_⟩
    · by_contra beyond
      obtain ⟨last, run, collides⟩ := @crowding_collides _ _ _ _ _ config program store job 0 (2 ^ 64 - 1) rfl
      refine collides (always _ last run ?_ ?_ ?_)
      · rw [chosenIds_crowding, if_pos rfl]
        exact List.nodup_nil
      · rw [chosenIds_crowding, if_pos rfl]
        exact List.nil_subset ids
      · rw [numbered_crowding, if_pos rfl]
        omega
    · by_contra reached
      obtain ⟨given, word⟩ := words id member
      have meets : ((if id = 0 then 2 else 1) + (id - 1)) % 2 ^ 64 = if id = 0 then 1 else id := by
        rw [if_neg given, if_neg given, Nat.mod_eq_of_lt (by omega)]
        omega
      obtain ⟨last, run, collides⟩ := crowding_collides config program store job meets
      refine collides (always _ last run ?_ ?_ ?_)
      · rw [chosenIds_crowding, if_neg given]
        exact List.pairwise_singleton _ id
      · rw [chosenIds_crowding, if_neg given]
        exact List.cons_subset.mpr ⟨member, List.nil_subset ids⟩
      · rw [numbered_crowding, if_neg given]
        omega
  · rintro ⟨room, above⟩ acts queue run distinct listed numbered
    have none_yet : (Queue.new config store : Queue Store Process Job Value).Counted 0 [] :=
      ⟨rfl, fun _ member => (List.not_mem_nil member).elim, List.nodup_nil⟩
    apply none_yet.run_fresh run (Queue.new_sound config store)
    · rwa [List.append_nil]
    · omega
    · rw [List.append_nil, Nat.zero_add]
      intro id picked
      exact Nat.lt_of_le_of_lt numbered (above id (listed picked))

end Queue

instance {Store Process Job Label Value : Type*} (queue : Queue Store Process Job Value) (act : QueueAct Job Label) :
    Decidable (queue.Fresh act) := by
  induction act using QueueAct.casesOn with
  | submit id job => exact inferInstanceAs (Decidable (id = 0 → ∀ submission ∈ queue.submissions,
      submission.phase.accepted = true → submission.resolved = false → submission.task.id ≠ queue.nextId))
  | insert place => exact inferInstanceAs (Decidable (∀ owner ∈ queue.submissions[place]?,
      ∀ other ∈ queue.cancels owner.task.id, ∀ submission ∈ queue.submissions[other]?, submission.resolved = true))
  | _ => exact .isTrue trivial

/-- The caller gives the id 7 to its first task, and the queue numbers only one call. -/
def apartActs : List (QueueAct SavedTask ReportingEvent) := submitActs 7 0 ++ [.submit 0 badTask, .insert 1]

theorem Queue.numbers_fresh_iff_apart :
    Admitted (Queue.step ⟨1, 1⟩ (reporting DownloadState {} .through anyHasher)) Queue.Fresh (emptyQueue ⟨1, 1⟩)
      apartActs := by
  have run : Run (Queue.step ⟨1, 1⟩ (reporting DownloadState {} .through anyHasher)) (fun _ _ => True)
      (emptyQueue ⟨1, 1⟩) apartActs ((queueRun ⟨1, 1⟩ apartActs).get rfl) :=
    run_of_replay (by decide +kernel) (Option.some_get _).symm
  exact (Queue.numbers_fresh_iff _ _ _ badTask [7] (by decide) 1).mpr (by decide) _ _ run (by decide) (by decide)
    (by decide)

/-- The caller gives the id 1 to its first task, and the queue gives it to the second one. -/
def clashingActs : List (QueueAct SavedTask ReportingEvent) := submitActs 1 0 ++ [.submit 0 badTask, .insert 1]

theorem Queue.numbers_not_fresh :
    ¬ ∀ acts queue, Run (Queue.step ⟨1, 1⟩ (reporting DownloadState {} .through anyHasher)) (fun _ _ => True)
      (emptyQueue ⟨1, 1⟩) acts queue → (chosenIds acts).Nodup →
        Admitted (Queue.step ⟨1, 1⟩ (reporting DownloadState {} .through anyHasher)) Queue.Fresh
          (emptyQueue ⟨1, 1⟩) acts := by
  intro always
  have run : Run (Queue.step ⟨1, 1⟩ (reporting DownloadState {} .through anyHasher)) (fun _ _ => True)
      (emptyQueue ⟨1, 1⟩) clashingActs ((queueRun ⟨1, 1⟩ clashingActs).get rfl) :=
    run_of_replay (by decide +kernel) (Option.some_get _).symm
  have admitted := always _ _ run (by decide)
  revert admitted
  decide +kernel

end FastDownloader
