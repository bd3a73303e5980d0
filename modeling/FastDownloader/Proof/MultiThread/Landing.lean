/-
This file proves that a call whose background writes all land looks like a call whose writes take effect at once.
-/

import FastDownloader.Foundation.Simulation
import FastDownloader.Proof.Disk.Pending
import FastDownloader.Proof.MultiThread.Background
import FastDownloader.Proof.Worker.Landed

namespace FastDownloader

open Foundation

/-- A write that starts lies in the range of its worker. -/
theorem Worker.StepFacts.inside {right : Nat → UInt8 → Prop} {worker moved : Worker} {event : WorkerEvent}
    {effect : Effect} {placed : Nat × List UInt8} (facts : worker.StepFacts right .background event moved effect)
    (sound : worker.Sound right) (free : worker.handle.flight = none)
    (flight : moved.handle.flight = some placed) : Inside moved placed := by
  cases facts.moved with
  | passed bytes _ accepts _ flies =>
      obtain rfl := Option.some.inj (flight.symm.trans flies)
      unfold Inside
      rw [facts.start, facts.stop]
      exact ⟨sound.start_le_handed, accepts.bounded⟩
  | wrote _ mode | torn _ _ mode => cases mode
  | dropped _ _ _ _ closed =>
      rw [closed] at flight
      cases flight
  | control _ same | stored _ _ _ _ same | counted _ _ _ same | marked _ _ _ _ _ _ same =>
      rw [same, free] at flight
      cases flight

namespace Multi

variable {Text : Type} {job : Job} {disk : Disk Text} {multi : Multi} {act : Act}

/-- No background write is lost, and no handle is dropped before its background write has landed. -/
def Landing (multi : Multi) : Act → Prop
  | .worker index event => ∀ worker ∈ multi.workers[index]?, worker.Landing multi.cancelled event
  | .lose _ _ | .loseOrphan _ _ => False
  | _ => True

instance (multi : Multi) : ∀ act, Decidable (multi.Landing act)
  | .worker index event =>
      inferInstanceAs (Decidable (∀ worker ∈ multi.workers[index]?, worker.Landing multi.cancelled event))
  | .lose _ _ | .loseOrphan _ _ => .isFalse id
  | .cancel | .main _ | .saver _ | .land _ | .landOrphan _ => .isTrue trivial

/-- The call once its background writes have landed. -/
def landed (multi : Multi) : Multi := { multi with workers := multi.workers.map Worker.landed }

/-- These background writes are under way. -/
def pending (multi : Multi) : List (Nat × List UInt8) := multi.workers.filterMap fun worker => worker.handle.flight

/-- Nothing is under way exactly when no handle carries a write. -/
theorem pending_eq_nil : multi.pending = [] ↔ ∀ worker ∈ multi.workers, worker.handle.flight = none :=
  List.filterMap_eq_nil_iff

theorem getElem?_landed (multi : Multi) (index : Nat) :
    multi.landed.workers[index]? = multi.workers[index]?.map Worker.landed := List.getElem?_map ..

/-- The answers of the servers do not depend on the handles. -/
theorem answered_landed (right : Nat → UInt8 → Prop) (multi : Multi) (act : Act) :
    multi.landed.Answered right act ↔ multi.Answered right act := by
  unfold Answered
  split
  · rename_i index event
    rw [getElem?_landed]
    cases multi.workers[index]? with
    | none => simp
    | some worker =>
        simp only [Option.map_some, Option.mem_some_iff, forall_eq']
        rfl
  · exact Iff.rfl

theorem results_landed (multi : Multi) : multi.landed.results = multi.results := by
  simp only [results, landed, List.filterMap_map]
  rfl

@[simp] theorem verdict_landed (multi : Multi) : multi.landed.verdict job = multi.verdict job := by
  unfold verdict
  rw [results_landed]
  rfl

theorem finished_landed (multi : Multi) :
    multi.landed.workers.all Worker.finished = multi.workers.all Worker.finished := by
  rw [landed, List.all_map]
  rfl

/-- The state task reads only the positions. -/
theorem snapshot_landed (workers : List Worker) (loaded : List Nat) :
    snapshot job (workers.map Worker.landed) loaded = snapshot job workers loaded := by
  simp only [snapshot, List.zipWith_map_left]
  rfl

theorem saver_landed (saver : Saver) (workers : List Worker) (stopping : Bool) (event : SaverEvent) :
    saver.step job (workers.map Worker.landed) stopping event = saver.step job workers stopping event := by
  unfold Saver.step
  simp only [List.getElem?_map, snapshot_landed]
  split
  · rfl
  · rfl
  · rfl
  · rename_i loaded _
    cases workers[loaded.length]? <;> rfl
  · rfl
  · rfl
  · rfl

/-- What holds of a call with background writes and of the call that it looks like. -/
structure Shadows [SerdeJson Text] (job : Job) (before shown : Disk Text × Multi) : Prop where
  begun : Unbegun job before.2 ∨ Controlled (fun _ _ => True) job before.2
  inside : ∀ worker ∈ before.2.workers, ∀ placed ∈ worker.handle.flight, Inside worker placed
  healthy : ∀ worker ∈ before.2.workers, worker.handle ≠ .failed
  grounded : before.2.phase ≠ .running → before.2.pending = []
  orphans : before.2.orphans = []
  process : shown.2 = before.2.landed
  seen : shown.1.faded = (before.1.writeAll before.2.pending).faded

variable [SerdeJson Text] {before shown after : Disk Text × Multi}

/-- A call whose handles are all closed looks like itself. -/
theorem shadows_closed {disk other : Disk Text} (begun : Unbegun job multi ∨ Controlled (fun _ _ => True) job multi)
    (closed : ∀ worker ∈ multi.workers, worker.handle = .closed) (orphans : multi.orphans = [])
    (seen : other.faded = disk.faded) : Shadows job (disk, multi) (other, multi) := by
  have free : ∀ worker ∈ multi.workers, worker.handle.flight = none := fun worker member => by
    rw [closed worker member]
    rfl
  have whole : multi.workers.map Worker.landed = multi.workers := by
    refine (List.map_congr_left fun worker member => ?_).trans (List.map_id _)
    unfold Worker.landed
    rw [show worker.handle.landed = worker.handle by rw [closed worker member]; rfl]
    rfl
  refine ⟨begun, fun worker member placed held => ?_, fun worker member => ?_, fun _ => pending_eq_nil.mpr free,
    orphans, ?_, ?_⟩
  · rw [free worker member] at held
    cases held
  · rw [closed worker member]
    simp
  · simp only [landed, whole]
  · rwa [pending_eq_nil.mpr free, Disk.writeAll_nil]

/-- Before its first step a call has nothing under way. -/
theorem start_shadows {disk shown : Disk Text} (seen : shown.faded = disk.faded) (job : Job) :
    Shadows job (disk, Multi.start job) (shown, Multi.start job) :=
  shadows_closed (Or.inl (start_unbegun job)) (by simp [Multi.start]) rfl seen

/-- A call that does not run its workers shows its own disk. -/
theorem Shadows.settled (shadows : Shadows job before shown) (resting : before.2.phase ≠ .running) :
    shown.1.faded = before.1.faded := by
  have seen := shadows.seen
  rwa [shadows.grounded resting] at seen

theorem Shadows.dlstate (shadows : Shadows job before shown) : shown.1.dlstate = before.1.dlstate :=
  Disk.dlstate_seen shadows.seen

theorem Shadows.outcome (shadows : Shadows job before shown) : shown.2.outcome = before.2.outcome := by
  rw [shadows.process]
  rfl

/-- A call that has returned shows its own disk. -/
theorem Shadows.returned (shadows : Shadows job before shown) {result : Except Error Unit}
    (ended : before.2.outcome = some result) : shown.1.faded = before.1.faded := by
  refine shadows.settled fun running => ?_
  rw [(outcome_iff _ _).mp ended] at running
  cases running

/-- Two writes that are under way are the same or apart. -/
theorem Controlled.pending_apart {right : Nat → UInt8 → Prop} (controlled : Controlled right job multi)
    (inside : ∀ worker ∈ multi.workers, ∀ placed ∈ worker.handle.flight, Inside worker placed) :
    ∀ write ∈ multi.pending, ∀ other ∈ multi.pending, write = other ∨ Disk.Apart write other := by
  intro write first other second
  obtain ⟨left, leftMember, leftFlight⟩ := List.mem_filterMap.mp first
  obtain ⟨right, rightMember, rightFlight⟩ := List.mem_filterMap.mp second
  obtain ⟨leftLower, leftUpper⟩ := inside left leftMember write leftFlight
  obtain ⟨rightLower, rightUpper⟩ := inside right rightMember other rightFlight
  obtain ⟨here, atLeft⟩ := List.getElem?_of_mem leftMember
  obtain ⟨there, atRight⟩ := List.getElem?_of_mem rightMember
  rcases Nat.lt_trichotomy here there with ahead | rfl | behind
  · have := controlled.tiles.disjoint ahead atLeft atRight
    exact Or.inr (Or.inl (by omega))
  · obtain rfl := Option.some.inj (atLeft.symm.trans atRight)
    exact Or.inl (Option.some.inj (leftFlight.symm.trans rightFlight))
  · have := controlled.tiles.disjoint behind atRight atLeft
    exact Or.inr (Or.inr (by omega))

omit [SerdeJson Text] in
/-- A step of the main task needs no write to have landed, because none is under way then. -/
theorem MainMove.grounded {right : Nat → UInt8 → Prop} {after : Disk Text} {event : MainEvent} {phase : Phase}
    (move : MainMove job disk multi event after phase) (controlled : Controlled right job multi)
    (grounded : multi.phase ≠ .running → multi.pending = []) : multi.pending = [] := by
  cases move with
  | join at_phase finished =>
      refine pending_eq_nil.mpr fun worker member => ?_
      exact controlled.parked worker member (Worker.closed_of_finished (finished worker member))
  | created at_phase | notCreated at_phase | resized at_phase | notResized at_phase | settled _ at_phase
  | conclude at_phase | discarded _ _ at_phase | reopened at_phase | notReopened at_phase | finalSync _ at_phase
  | deleted _ at_phase => exact grounded (by simp [at_phase])

/-- The main task takes the same step whatever is durable. -/
theorem MainMove.faded {after other : Disk Text} {event : MainEvent} {phase : Phase}
    (move : MainMove job disk multi event after phase) (seen : other.faded = disk.faded) :
    ∃ next, next.faded = after.faded ∧
      mainStep job other multi.landed event = some (next, { multi.landed with phase := phase }) := by
  have phase_eq : multi.landed.phase = multi.phase := rfl
  have synced : ∀ ok : Bool, (if ok = true then other.sync else other).faded =
      (if ok = true then disk.sync else disk).faded := by
    intro ok
    cases ok
    · exact seen
    · simpa using seen
  have deleted : ∀ ok : Bool, (if ok = true then other.deleteState else other).faded =
      (if ok = true then disk.deleteState else disk).faded := by
    intro ok
    cases ok
    · exact seen
    · exact congrArg Disk.deleteState seen
  cases move with
  | created at_phase =>
      refine ⟨other.openCreate, ?_, by simp only [mainStep, phase_eq, at_phase, if_true]⟩
      rw [Disk.faded_openCreate, Disk.faded_openCreate, seen]
  | resized at_phase =>
      refine ⟨other.setLen job.fileSize, ?_, by simp only [mainStep, phase_eq, at_phase, if_true]⟩
      rw [Disk.faded_setLen, Disk.faded_setLen, seen]
  | notCreated at_phase | notResized at_phase | notReopened at_phase =>
      exact ⟨other, seen, by simp only [mainStep, phase_eq, at_phase, Bool.false_eq_true, if_false]⟩
  | reopened at_phase => exact ⟨other, seen, by simp only [mainStep, phase_eq, at_phase, if_true]⟩
  | settled ok at_phase | finalSync ok at_phase =>
      exact ⟨_, synced ok, by simp only [mainStep, phase_eq, at_phase]⟩
  | join at_phase finished =>
      refine ⟨other, seen, ?_⟩
      have all : multi.landed.workers.all Worker.finished = true := by
        rw [finished_landed]
        exact List.all_eq_true.mpr finished
      simp only [mainStep, phase_eq, at_phase, all, if_true]
  | conclude at_phase saved =>
      refine ⟨other, seen, ?_⟩
      have ended : multi.landed.saver.pc = .finished := saved
      simp only [mainStep, phase_eq, at_phase, ended, if_true, verdict_landed]
  | discarded ok error at_phase | deleted ok at_phase =>
      exact ⟨_, deleted ok, by simp only [mainStep, phase_eq, at_phase]⟩

/-- One worker moves, and its background write appears or stays. -/
theorem pending_set {index : Nat} {worker : Worker} (present : multi.workers[index]? = some worker) :
    ∃ first rest, multi.pending = first ++ (worker.handle.flight.toList ++ rest) ∧
      ∀ moved : Worker, ({ multi with workers := multi.workers.set index moved } : Multi).pending =
        first ++ (moved.handle.flight.toList ++ rest) :=
  filterMap_set (fun worker : Worker => worker.handle.flight) present

/-- A worker of a call that looks like a call at once moves in both. -/
theorem Shadows.worker (shadows : Shadows job before shown)
    (controlled : Controlled (fun _ _ => True) job before.2) {index : Nat} {event : WorkerEvent}
    (landing : before.2.Landing (.worker index event))
    (taken : Multi.step .background job before (.worker index event) = some after) :
    ∃ next, Shadows job after next ∧ Multi.step .through job shown (.worker index event) = some next := by
  obtain ⟨disk, multi⟩ := before
  obtain ⟨other, shadow⟩ := shown
  obtain rfl : shadow = multi.landed := shadows.process
  have still := controlled.change (controlled.step_change (answered_any _ _) taken)
  simp only [Multi.step, workerStep] at taken
  split at taken
  · rename_i worker running present
    obtain ⟨⟨moved, effect⟩, stepped, rfl⟩ := Option.map_eq_some_iff.mp taken
    have member := List.mem_of_getElem? present
    have parked := controlled.parked worker member
    have facts := Worker.step_facts (controlled.sound worker member) parked
      (answered_any multi (.worker index event) worker present) stepped
    obtain ⟨healthy, effect', follows, followed⟩ :=
      Worker.step_landed parked (shadows.healthy worker member) (landing worker present) stepped
    have at_once : Multi.step .through job (other, multi.landed) (.worker index event) = some (applyEffect other
        { multi.landed with workers := multi.landed.workers.set index moved.landed } effect') := by
      have running' : multi.landed.phase = .running := running
      have present' : multi.landed.workers[index]? = some worker.landed := by
        rw [getElem?_landed, present]
        rfl
      have calm : multi.landed.cancelled = multi.cancelled := rfl
      simp only [Multi.step, workerStep, running', present', calm, followed, Option.map_some]
    refine ⟨_, ?_, at_once⟩
    obtain ⟨first, rest, whole, updated⟩ := pending_set present
    have all_healthy : ∀ other ∈ multi.workers.set index moved, other.handle ≠ .failed :=
      forall_mem_set shadows.healthy healthy
    have seen := shadows.seen
    cases follows with
    | kept effect quiet flight =>
        have inside : ∀ other ∈ multi.workers.set index moved, ∀ placed ∈ other.handle.flight,
            Inside other placed := by
          refine forall_mem_set shadows.inside fun placed held => ?_
          have kept := shadows.inside worker member placed (flight ▸ held)
          unfold Inside at *
          rwa [facts.start, facts.stop]
        have same : (multi.workers.set index moved).filterMap (fun worker => worker.handle.flight) =
            multi.pending := by
          rw [whole, ← flight]
          exact updated moved
        rcases quiet with rfl | ⟨bytes, rfl⟩ <;>
          exact ⟨Or.inr still, inside, all_healthy, fun resting => absurd running resting, shadows.orphans,
            by simp only [applyEffect, landed, List.map_set], by simpa only [applyEffect, pending, same] using seen⟩
    | passed placed free flight =>
        have inside : ∀ other ∈ multi.workers.set index moved, ∀ placed ∈ other.handle.flight,
            Inside other placed := by
          refine forall_mem_set shadows.inside fun found held => ?_
          obtain rfl := Option.some.inj (flight.symm.trans held)
          exact facts.inside (controlled.sound worker member) free flight
        refine ⟨Or.inr still, inside, all_healthy, fun resting => absurd running resting, shadows.orphans,
          by simp only [applyEffect, landed, List.map_set], ?_⟩
        have apart := still.pending_apart inside
        have grown : ({ multi with workers := multi.workers.set index moved } : Multi).pending =
            first ++ placed :: rest := by
          rw [updated, flight]
          rfl
        have behind : (first ++ placed :: rest).Perm (multi.pending ++ [placed]) := by
          rw [whole, free]
          exact List.perm_middle.trans (List.perm_append_singleton _ _).symm
        dsimp only [applyEffect] at apart seen ⊢
        rw [grown] at apart ⊢
        rw [Disk.writeAll_perm behind apart, Disk.writeAll_append, Disk.faded_write, Disk.faded_write, seen]
  · cases taken

/-- A background write that lands does not show. -/
theorem Shadows.land (shadows : Shadows job before shown)
    (controlled : Controlled (fun _ _ => True) job before.2) {index : Nat}
    (taken : Multi.step .background job before (.land index) = some after) : Shadows job after shown := by
  obtain ⟨disk, multi⟩ := before
  obtain ⟨worker, offset, bytes, present, carried⟩ := landStep_busy taken
  simp only [Multi.step, landStep, present, carried] at taken
  cases taken
  have flight : worker.handle.flight = some (offset, bytes) := by rw [carried]; rfl
  obtain ⟨first, rest, whole, updated⟩ := pending_set present
  rw [flight, Option.toList_some, List.singleton_append] at whole
  have left : ({ multi with workers := multi.workers.set index { worker with handle := .idle } } : Multi).pending =
      first ++ rest := updated _
  have idle : Worker.landed { worker with handle := .idle } = worker.landed := by
    rw [Worker.landed, Worker.landed, carried]
    rfl
  have begun : Controlled (fun _ _ => True) job
      { multi with workers := multi.workers.set index { worker with handle := .idle } } :=
    controlled.rehandle present rfl
  refine ⟨Or.inr begun, forall_mem_set shadows.inside (by rintro placed ⟨⟩),
    forall_mem_set shadows.healthy (by simp), fun resting => ?_, shadows.orphans, ?_, ?_⟩
  · have none_flies := shadows.grounded resting
    rw [whole] at none_flies
    simp at none_flies
  · obtain ⟨below, rfl⟩ := List.getElem?_eq_some_iff.mp present
    rw [shadows.process]
    simp only [landed, List.map_set, idle]
    rw [← List.map_set, List.set_getElem_self]
  · have apart := controlled.pending_apart shadows.inside
    rw [whole] at apart
    have same := Disk.writeAll_perm List.perm_middle apart disk
    have seen := shadows.seen
    dsimp only at seen
    rw [whole, same, Disk.writeAll_cons] at seen
    rw [left]
    exact seen

/-- A checkpoint or a sync does not depend on the writes that are under way. -/
theorem applySaverEffect_seen {disk other : Disk Text} {placed : List (Nat × List UInt8)}
    (seen : other.faded = (disk.writeAll placed).faded) (effect : SaverEffect) :
    (applySaverEffect other effect).faded = ((applySaverEffect disk effect).writeAll placed).faded := by
  cases effect with
  | none => exact seen
  | sync =>
      simp only [applySaverEffect, Disk.faded_sync, Disk.faded_writeAll]
      rw [seen, Disk.faded_writeAll]
  | save taken =>
      simp only [applySaverEffect, Disk.writeAll_saveState]
      exact congrArg (Disk.saveState · (SerdeJson.toVec taken)) seen

/-- The state task of both calls takes the same steps. -/
theorem Shadows.saver (shadows : Shadows job before shown)
    (controlled : Controlled (fun _ _ => True) job before.2) {event : SaverEvent}
    (taken : Multi.step .background job before (.saver event) = some after) :
    ∃ next, Shadows job after next ∧ Multi.step .through job shown (.saver event) = some next := by
  obtain ⟨disk, multi⟩ := before
  obtain ⟨other, shadow⟩ := shown
  obtain rfl : shadow = multi.landed := shadows.process
  have still := controlled.change (controlled.step_change (answered_any _ _) taken)
  have phase : multi.landed.phase = multi.phase := rfl
  have same : ∀ stopping, multi.landed.saver.step job multi.landed.workers stopping event =
      multi.saver.step job multi.workers stopping event := fun stopping => saver_landed _ _ _ _
  have moves : ∀ moved : Saver × SaverEffect, Controlled (fun _ _ => True) job { multi with saver := moved.1 } →
      Shadows job (applySaverEffect disk moved.2, { multi with saver := moved.1 })
        (applySaverEffect other moved.2, { multi.landed with saver := moved.1 }) := fun moved kept =>
    ⟨Or.inr kept, shadows.inside, shadows.healthy, shadows.grounded, shadows.orphans, rfl,
      applySaverEffect_seen shadows.seen moved.2⟩
  simp only [Multi.step, saverStep] at taken
  split at taken
  · rename_i running
    obtain ⟨moved, stepped, rfl⟩ := Option.map_eq_some_iff.mp taken
    refine ⟨_, moves moved still, ?_⟩
    simp only [Multi.step, saverStep, phase, running, same, stepped, Option.map_some]
  · rename_i stopping
    obtain ⟨moved, stepped, rfl⟩ := Option.map_eq_some_iff.mp taken
    refine ⟨_, moves moved still, ?_⟩
    simp only [Multi.step, saverStep, phase, stopping, same, stepped, Option.map_some]
  · cases taken

/-- The load reads only the state file. -/
theorem load_seen {disk other : Disk Text} (same : other.dlstate = disk.dlstate) {event : MainEvent}
    (at_phase : multi.phase = .loading) {next : Disk Text × Multi}
    (taken : mainStep job disk multi event = some next) :
    mainStep job other multi event = some (other, next.2) := by
  unfold mainStep at taken ⊢
  rw [at_phase] at taken ⊢
  cases event with
  | load readable =>
      dsimp only at taken ⊢
      cases known : job.info.size with
      | none =>
          rw [known] at taken
          cases taken
          rfl
      | some fileSize =>
          rw [known] at taken
          dsimp only at taken ⊢
          rw [same]
          cases chosen : chooseRanges job fileSize (if readable = true then disk.dlstate else none) with
          | none =>
              rw [chosen] at taken
              cases taken
              rfl
          | some ranges =>
              rw [chosen] at taken
              cases taken
              rfl
  | _ => cases taken

/-- A call that has not begun takes the same step on both disks. -/
theorem Shadows.unbegun (shadows : Shadows job before shown) (unbegun : Unbegun job before.2)
    (taken : Multi.step .background job before act = some after) :
    ∃ next, Shadows job after next ∧ Multi.step .through job shown act = some next := by
  obtain ⟨disk, multi⟩ := before
  obtain ⟨other, shadow⟩ := shown
  obtain ⟨phase, empty, orphans, saver⟩ := id unbegun
  dsimp only at phase empty orphans saver
  have whole : multi.landed = multi := by rw [landed, empty, List.map_nil, ← empty]
  have resting : multi.phase ≠ .running := by rcases phase with same | ⟨same, -⟩ | same <;> simp [same]
  have seen : other.faded = disk.faded := shadows.settled resting
  rw [show shadow = multi from shadows.process.trans whole]
  cases act with
  | cancel =>
      cases taken
      exact ⟨(other, { multi with cancelled := true }), shadows_closed (Or.inl ⟨phase, empty, orphans, saver⟩)
        (by simp [empty]) orphans seen, rfl⟩
  | main event =>
      have begun := step_begun (Or.inl unbegun) taken
      have loading : multi.phase = .loading := by
        rcases phase with loading | ⟨returned, -⟩ | panicked
        · exact loading
        · simp [Multi.step, mainStep, returned] at taken
        · simp [Multi.step, mainStep, panicked] at taken
      refine ⟨_, ?_, load_seen shadows.dlstate loading taken⟩
      rcases unbegun.step_cases taken with ⟨same, still⟩ | ⟨readable, ranges, -, -, rfl⟩
      · obtain ⟨after, next⟩ := after
        obtain rfl : after = disk := same
        have none_left : next.workers = [] := still.workers
        exact shadows_closed begun (by simp [none_left]) still.orphans seen
      · refine shadows_closed begun (fun worker member => ?_) orphans seen
        obtain ⟨range, _, rfl⟩ := List.mem_map.mp member
        rfl
  | worker index event => simp [Multi.step, workerStep, empty] at taken
  | saver event =>
      rw [unbegun.saver_waits] at taken
      cases taken
  | land index | lose index => simp [Multi.step, landStep, empty] at taken
  | landOrphan index | loseOrphan index => simp [Multi.step, orphanStep, orphans] at taken

/-- Each step without a lost write is a step of the call that it looks like, or it does not show. -/
theorem Shadows.step (shadows : Shadows job before shown) (landing : before.2.Landing act)
    (taken : Multi.step .background job before act = some after) :
    ∃ next, Shadows job after next ∧ (next = shown ∨ Multi.step .through job shown act = some next) := by
  obtain ⟨disk, multi⟩ := before
  rcases shadows.begun with unbegun | controlled
  · obtain ⟨next, kept, stepped⟩ := shadows.unbegun unbegun taken
    exact ⟨next, kept, Or.inr stepped⟩
  · have still := controlled.change (controlled.step_change (answered_any _ _) taken)
    have process := shadows.process
    obtain ⟨other, shadow⟩ := shown
    obtain rfl : shadow = multi.landed := process
    cases act with
    | cancel =>
        cases taken
        refine ⟨(other, { multi.landed with cancelled := true }), ?_, Or.inr rfl⟩
        exact ⟨Or.inr still, shadows.inside, shadows.healthy, shadows.grounded, shadows.orphans, rfl, shadows.seen⟩
    | main event =>
        obtain ⟨phase, same, move⟩ := mainStep_move controlled.begun taken
        have grounded := move.grounded controlled shadows.grounded
        have seen := shadows.seen
        dsimp only at seen
        rw [grounded, Disk.writeAll_nil] at seen
        obtain ⟨next, kept, stepped⟩ := move.faded seen
        refine ⟨(next, { multi.landed with phase := phase }), ?_, Or.inr stepped⟩
        obtain ⟨after, rfl⟩ : ∃ store, after = (store, { multi with phase := phase }) := ⟨after.1, Prod.ext rfl same⟩
        exact ⟨Or.inr still, shadows.inside, shadows.healthy, fun _ => grounded, shadows.orphans, rfl,
          by rwa [show pending { multi with phase := phase } = [] from grounded]⟩
    | worker index event =>
        obtain ⟨next, kept, stepped⟩ := shadows.worker controlled landing taken
        exact ⟨next, kept, Or.inr stepped⟩
    | saver event =>
        obtain ⟨next, kept, stepped⟩ := shadows.saver controlled taken
        exact ⟨next, kept, Or.inr stepped⟩
    | land index => exact ⟨_, shadows.land controlled taken, Or.inl rfl⟩
    | lose | loseOrphan => exact landing.elim
    | landOrphan index =>
        obtain ⟨offset, bytes, present⟩ := orphanStep_present taken
        rw [shadows.orphans] at present
        cases present

/-- Two calls differ at most in writes that are under way, and two that have returned only in what is durable. -/
structure Resembles (before shown : Disk Text × Multi) : Prop where
  process : shown.2.landed = before.2.landed
  dlstate : shown.1.dlstate = before.1.dlstate
  settled : before.2.pending = [] ∨ before.2.outcome.isSome = true → shown.1.faded = before.1.faded

omit [SerdeJson Text] in
theorem Resembles.refl (state : Disk Text × Multi) : Resembles state state := ⟨rfl, rfl, fun _ => rfl⟩

theorem landed_landed (multi : Multi) : multi.landed.landed = multi.landed := by
  have twice : ∀ worker : Worker, worker.landed.landed = worker.landed := by
    intro worker
    unfold Worker.landed Handle.landed
    cases worker.handle <;> rfl
  simp only [landed, List.map_map]
  congr 1
  exact List.map_congr_left fun worker _ => twice worker

theorem Shadows.resembles (shadows : Shadows job before shown) : Resembles before shown where
  process := by rw [shadows.process, landed_landed]
  dlstate := shadows.dlstate
  settled := by
    rintro (settled | returned)
    · have seen := shadows.seen
      rwa [settled, Disk.writeAll_nil] at seen
    · obtain ⟨result, ended⟩ := Option.isSome_iff_exists.mp returned
      exact shadows.returned ended

section Resembles

omit [SerdeJson Text]

variable (resembles : Resembles before shown)

include resembles

theorem Resembles.answered (right : Nat → UInt8 → Prop) (act : Act) :
    shown.2.Answered right act ↔ before.2.Answered right act := by
  rw [← answered_landed right shown.2, resembles.process, answered_landed]

theorem Resembles.outcome : shown.2.outcome = before.2.outcome := by
  have same := congrArg Multi.outcome resembles.process
  exact same

theorem Resembles.ranges : shown.2.workers.map Worker.range = before.2.workers.map Worker.range := by
  have whole : ∀ multi : Multi, multi.landed.workers.map Worker.range = multi.workers.map Worker.range := by
    intro multi
    simp only [landed, List.map_map]
    rfl
  rw [← whole shown.2, resembles.process, whole]

/-- The contents of a call that has returned do not depend on how its writes went. -/
theorem Resembles.returned {result : Except Error Unit} (ended : before.2.outcome = some result) :
    shown.1.faded = before.1.faded :=
  resembles.settled (Or.inr (by rw [ended]; rfl))

end Resembles

variable {io : FileIo}

/-- A call that has only chosen its ranges shows itself. -/
theorem begin_shadows (disk : Disk Text) {ranges : List WorkerRange}
    (chosen : chooseRanges job job.fileSize disk.dlstate = some ranges) :
    Shadows job (disk, (Multi.start job).begin ranges) (disk, (Multi.start job).begin ranges) := by
  refine shadows_closed (Or.inr ((start_unbegun job).controlled chosen)) (fun worker member => ?_) rfl rfl
  obtain ⟨range, _, rfl⟩ := List.mem_map.mp member
  rfl

/-- A call whose background writes all land resembles a call whose writes take effect at once. -/
theorem run_resembles {guard admits : Disk Text × Multi → Act → Prop} {first last : Disk Text × Multi}
    {acts : List Act} (closed : Shadows job first first)
    (run : Run (Multi.step io job) (fun state act => guard state act ∧ state.2.Landing act) first acts last)
    (admitted : ∀ state shown act, Resembles state shown → guard state act → admits shown act) :
    ∃ more next, Run (Multi.step .through job) admits first more next ∧ Resembles last next := by
  cases io with
  | through => exact ⟨acts, last, run.mono fun state act passed => admitted _ _ _ (.refl state) passed.1, .refl last⟩
  | background =>
      have followed : ∃ next, Reaches (Multi.step .through job) admits first next ∧ Shadows job last next := by
        refine run.followed (fun before act after shown shadows passed taken => ?_) closed
        obtain ⟨next, kept, rfl | followed⟩ := shadows.step passed.2 taken
        · exact ⟨next, .refl _, kept⟩
        · exact ⟨next, .single act (admitted _ _ _ shadows.resembles passed.1) followed, kept⟩
      obtain ⟨next, ⟨more, led⟩, shadows⟩ := followed
      exact ⟨more, next, led, shadows.resembles⟩

/-- No call of a session loses a write, and none is killed while one is under way. -/
def LandingMove (session : Session (Disk Text) Multi Job) : Move Job Act → Prop
  | .step act => ∀ process ∈ session.active, process.2.Landing act
  | .kill => ∀ process ∈ session.active, process.2.pending = []
  | _ => True

instance (session : Session (Disk Text) Multi Job) : ∀ move, Decidable (LandingMove session move)
  | .step act => inferInstanceAs (Decidable (∀ process ∈ session.active, process.2.Landing act))
  | .kill => inferInstanceAs (Decidable (∀ process ∈ session.active, process.2.pending = []))
  | .start _ | .finish => .isTrue trivial

/-- Two sessions of calls differ at most in writes that are under way. -/
abbrev Alike : Session (Disk Text) Multi Job → Session (Disk Text) Multi Job → Prop :=
  Session.Beside (fun store shown => shown.faded = store.faded) fun _ => Resembles

/-- Sessions without a lost write are sessions of calls whose writes take effect at once. -/
theorem session_alike {guard admits : Session (Disk Text) Multi Job → Move Job Act → Prop} {disk : Disk Text}
    {moves : List (Move Job Act)} {last : Session (Disk Text) Multi Job}
    (run : Run (multiThread Text io).session (fun session move => guard session move ∧ LandingMove session move)
      ⟨disk, none⟩ moves last)
    (admitted : ∀ session shown move, Alike session shown → guard session move → admits shown move) :
    ∃ more next, Run (multiThread Text .through).session admits ⟨disk, none⟩ more next ∧ Alike last next := by
  have reflects : ∀ session : Session (Disk Text) Multi Job, Alike session session :=
    Session.Beside.refl (fun _ => rfl) fun _ => Resembles.refl
  cases io with
  | through =>
      exact ⟨moves, last, run.mono fun session move passed => admitted _ _ _ (reflects session) passed.1,
        reflects last⟩
  | background =>
      have alike : ∀ {session shown : Session (Disk Text) Multi Job},
          Session.Beside (fun store shown => shown.faded = store.faded) Shadows session shown → Alike session shown :=
        Session.Beside.mono (fun _ _ same => same) fun _ _ _ => Shadows.resembles
      have follows : (multiThread Text .background).Follows
          (fun session move => guard session move ∧ LandingMove session move) (multiThread Text .through) admits
          (fun store shown => shown.faded = store.faded) Shadows := by
        constructor
        · intro store shown job seen passed
          exact ⟨admitted ⟨store, none⟩ ⟨shown, none⟩ _ seen passed.1, start_shadows seen job⟩
        · intro job before shown act after shadows passed taken
          obtain ⟨next, kept, same | followed⟩ := shadows.step (passed.2 _ rfl) taken
          · exact ⟨next, kept, Or.inl same⟩
          · have beside : Alike ⟨before.1, some (job, before.2)⟩ ⟨shown.1, some (job, shown.2)⟩ :=
              ⟨rfl, shadows.resembles⟩
            exact ⟨next, kept, Or.inr ⟨admitted _ _ _ beside passed.1, followed⟩⟩
        · intro job before shown result shadows passed returned
          have beside : Alike ⟨before.1, some (job, before.2)⟩ ⟨shown.1, some (job, shown.2)⟩ :=
            ⟨rfl, shadows.resembles⟩
          exact ⟨admitted _ _ _ beside passed.1,
            shadows.outcome.trans returned, shadows.returned returned⟩
        · intro job before shown shadows passed
          have beside : Alike ⟨before.1, some (job, before.2)⟩ ⟨shown.1, some (job, shown.2)⟩ :=
            ⟨rfl, shadows.resembles⟩
          refine ⟨admitted _ _ _ beside passed.1, ?_⟩
          exact shadows.resembles.settled (Or.inl (passed.2 _ rfl))
      have first : Session.Beside (fun store shown => shown.faded = store.faded) Shadows
          (⟨disk, none⟩ : Session (Disk Text) Multi Job) ⟨disk, none⟩ := rfl
      obtain ⟨next, ⟨more, followed⟩, beside⟩ := follows.followed run first
      exact ⟨more, next, followed, alike beside⟩

end Multi

end FastDownloader
