/-
This file follows every accepted byte through the background writes of a call.
-/

import FastDownloader.Proof.Disk.Cells
import FastDownloader.Proof.MultiThread.Assembly
import FastDownloader.Proof.MultiThread.Restart

namespace FastDownloader

open Foundation

variable {right : Nat → UInt8 → Prop} {Text : Type}

/-- The background write of a worker counts at the offsets that it covers. -/
def Worker.carried (worker : Worker) (position : Nat) : Nat :=
  match worker.handle.flight with
  | some placed => covering position placed
  | none => 0

theorem Worker.carried_of_flight {worker : Worker} {placed : Nat × List UInt8}
    (flight : worker.handle.flight = some placed) (position : Nat) :
    worker.carried position = covering position placed := by
  simp [carried, flight]

theorem Worker.carried_of_none {worker : Worker} (flight : worker.handle.flight = none) (position : Nat) :
    worker.carried position = 0 := by
  simp [carried, flight]

theorem Worker.carried_congr {worker next : Worker} (flight : next.handle.flight = worker.handle.flight)
    (position : Nat) : next.carried position = worker.carried position := by
  unfold carried
  rw [flight]

/-- The bytes that an effect leaves to a dropped handle. -/
def Effect.dropped (effect : Effect) (position : Nat) : Nat :=
  match effect with
  | .orphan offset bytes => covering position (offset, bytes)
  | _ => 0

/-- The writes of dropped handles and the lost bytes count at the offsets that they cover. -/
def Multi.stray (multi : Multi) (position : Nat) : Nat :=
  (multi.orphans.map (covering position)).sum + (multi.lost.map (covering position)).sum

/-- These bytes lie inside the range of the worker. -/
def Inside (worker : Worker) (placed : Nat × List UInt8) : Prop :=
  worker.start ≤ placed.1 ∧ placed.1 + placed.2.length ≤ worker.stop

theorem covering_outside {worker : Worker} {placed : Nat × List UInt8} (inside : Inside worker placed)
    {position : Nat} (outside : position < worker.start ∨ worker.stop ≤ position) : covering position placed = 0 := by
  unfold Inside at inside
  refine if_neg ?_
  omega

/-- Every byte that a worker handed over is written, under way, or lost. -/
structure Balanced (earlier : Nat → Nat) (disk : Disk Text) (multi : Multi) (range : WorkerRange)
    (worker : Worker) : Prop where
  start : worker.start = range.start
  stop : worker.stop = range.stop
  ahead : range.current ≤ worker.handed
  flight : ∀ placed ∈ worker.handle.flight, Inside worker placed
  account : ∀ position, worker.start ≤ position → position < worker.stop →
    (disk.cell position).writes + worker.carried position + multi.stray position =
      earlier position + if range.current ≤ position ∧ position < worker.handed then 1 else 0

variable {earlier : Nat → Nat} {ranges : List WorkerRange} {job : Job} {disk after : Disk Text}
  {multi next : Multi} {act : Act}

/-- A worker step moves bytes from hand to handle and from handle to the dropped writes. -/
theorem Balanced.worker {range : WorkerRange} {worker moved : Worker} {event : WorkerEvent} {effect : Effect}
    (balanced : Balanced earlier disk multi range worker) (sound : worker.Sound fun _ _ => True)
    (facts : worker.StepFacts (fun _ _ => True) .background event moved effect)
    (stray : ∀ position, next.stray position = multi.stray position + effect.dropped position) :
    Balanced earlier disk next range moved := by
  have start := facts.start.trans balanced.start
  have stop := facts.stop.trans balanced.stop
  have ahead := balanced.ahead
  -- Only an accepted write and a dropped handle change the account.
  have rested : moved.handed = worker.handed → moved.handle.flight = worker.handle.flight →
      effect.dropped = (fun _ => 0) → Balanced earlier disk next range moved := by
    intro handed flight none_dropped
    refine ⟨start, stop, handed ▸ ahead, fun placed held => ?_, fun position lower upper => ?_⟩
    · have inside := balanced.flight placed (flight ▸ held)
      unfold Inside at *
      rwa [facts.start, facts.stop]
    · rw [stray, none_dropped, Worker.carried_congr flight, handed]
      exact balanced.account position (facts.start ▸ lower) (facts.stop ▸ upper)
  cases facts.moved with
  | control rests flight => exact rested rests.handed flight rfl
  | stored _ _ handed _ flight | counted handed _ _ flight | marked _ _ _ _ handed _ flight =>
      exact rested handed flight rfl
  | wrote _ mode => cases mode
  | torn _ _ mode => cases mode
  | passed bytes mode accepts idle flight =>
      have bounded := accepts.bounded
      refine ⟨start, stop, ?_, fun placed held => ?_, fun position lower upper => ?_⟩
      · rw [accepts.handed]
        omega
      · rw [flight] at held
        obtain rfl := Option.some.inj held
        refine ⟨?_, ?_⟩
        · rw [facts.start]
          exact sound.start_le_handed
        · rw [facts.stop]
          exact bounded
      · have account := balanced.account position (facts.start ▸ lower) (facts.stop ▸ upper)
        rw [Worker.carried_of_none idle] at account
        rw [stray, Worker.carried_of_flight flight, accepts.handed]
        simp only [Effect.dropped, covering]
        split_ifs at account ⊢ <;> omega
  | dropped offset bytes rests held flight =>
      refine ⟨start, stop, rests.handed ▸ ahead, by simp [flight], fun position lower upper => ?_⟩
      have account := balanced.account position (facts.start ▸ lower) (facts.stop ▸ upper)
      rw [Worker.carried_of_flight held] at account
      rw [stray, Worker.carried_of_none flight, rests.handed]
      simp only [Effect.dropped]
      omega

namespace Multi

/-- Nothing is under way. -/
def Grounded (multi : Multi) : Prop :=
  (∀ worker ∈ multi.workers, worker.handle.flight = none) ∧ multi.orphans = []

/-- Before the data file is open, and after the open has failed, nothing is under way. -/
def Unopened (multi : Multi) : Prop :=
  (multi.phase = .opening ∨ multi.phase = .returned (.error .io)) ∧ multi.Grounded

/-- A controlled call whose accepted bytes are all accounted for. -/
structure Flowing (earlier : Nat → Nat) (ranges : List WorkerRange) (job : Job) (disk : Disk Text)
    (multi : Multi) : Prop where
  controlled : Controlled (fun _ _ => True) job multi
  balanced : List.Forall₂ (Balanced earlier disk multi) ranges multi.workers
  counted : ∀ position, position < job.fileSize → earlier position ≤ (disk.cell position).writes
  ready : disk.data.isSome = true ∨ multi.Unopened

/-- The call begins with its account in order. -/
theorem begin_flowing (cover : ExactCover job.fileSize ranges) (nonempty : ranges ≠ []) :
    Flowing (fun position => (disk.cell position).writes) ranges job disk ((Multi.start job).begin ranges) where
  controlled := begin_controlled cover nonempty rfl
  balanced := by
    refine List.forall₂_map_right_iff.mpr (List.forall₂_same.mpr fun range _ => ?_)
    refine ⟨rfl, rfl, Nat.le_refl _, by simp [Worker.spawn, Handle.flight], fun position _ _ => ?_⟩
    have calm : (Worker.spawn range).carried position = 0 := rfl
    have settled : ((Multi.start job).begin ranges).stray position = 0 := rfl
    rw [calm, settled, if_neg]
    simp only [Worker.spawn]
    omega
  counted := fun _ _ => Nat.le_refl _
  ready := by
    refine Or.inl ?_ |>.symm
    refine ⟨Or.inl rfl, ?_, rfl⟩
    intro worker member
    obtain ⟨range, _, rfl⟩ := List.mem_map.mp member
    rfl

/-- Each offset of the file lies in the range of one worker, whose saved position says if the offset was named. -/
theorem Flowing.owner (flowing : Flowing earlier ranges job disk multi) {position : Nat}
    (inside : position < job.fileSize) :
    ∃ (index : Nat) (range : WorkerRange) (worker : Worker), multi.workers[index]? = some worker ∧
      Balanced earlier disk multi range worker ∧ worker.start ≤ position ∧ position < worker.stop ∧
      (Named ranges position ↔ position < range.current) := by
  obtain ⟨index, worker, found, lower, upper⟩ :=
    flowing.controlled.tiles.exists_tile (Nat.zero_le position) inside
  obtain ⟨range, present, balanced⟩ := forall₂_getElem? flowing.balanced.flip found
  refine ⟨index, range, worker, found, balanced, lower, upper, fun named => ?_, fun below => ?_⟩
  · obtain ⟨other, member, otherLower, otherUpper⟩ := named
    obtain ⟨place, atPlace⟩ := List.getElem?_of_mem member
    obtain ⟨stranger, atStranger, strangerBalanced⟩ := forall₂_getElem? flowing.balanced atPlace
    have handed := (flowing.controlled.sound stranger (List.mem_of_getElem? atStranger)).handed_le
    have ahead := strangerBalanced.ahead
    obtain rfl := flowing.controlled.tiles.unique found atStranger ⟨lower, upper⟩
      ⟨strangerBalanced.start ▸ otherLower, by omega⟩
    obtain rfl := Option.some.inj (present.symm.trans atPlace)
    exact otherUpper
  · exact ⟨range, List.mem_of_getElem? present, balanced.start ▸ lower, below⟩

/-- The account stays in order when neither the writes nor what is under way changes. -/
theorem Flowing.still (flowing : Flowing earlier ranges job disk multi)
    (writes : ∀ position, position < job.fileSize →
      (after.cell position).writes = (disk.cell position).writes)
    (workers : next.workers = multi.workers) (stray : next.stray = multi.stray) :
    List.Forall₂ (Balanced earlier after next) ranges next.workers := by
  rw [workers]
  refine List.forall₂_iff_get.mpr ⟨flowing.balanced.length_eq, fun place inLeft inRight => ?_⟩
  have balanced := flowing.balanced.get inLeft inRight
  have bound := (flowing.controlled.tiles.bounds _ (List.getElem_mem inRight)).2.2
  refine ⟨balanced.start, balanced.stop, balanced.ahead, balanced.flight, fun position lower upper => ?_⟩
  rw [writes position (Nat.lt_of_lt_of_le upper bound), stray]
  exact balanced.account position lower upper

/-- Another worker touches no offset of this range. -/
theorem Controlled.covering_apart (controlled : Controlled right job multi) {index other position : Nat}
    {worker stranger : Worker} {placed : Nat × List UInt8} (different : index ≠ other)
    (present : multi.workers[index]? = some worker) (found : multi.workers[other]? = some stranger)
    (inside : Inside worker placed) (lower : stranger.start ≤ position) (upper : position < stranger.stop) :
    covering position placed = 0 :=
  covering_outside inside (controlled.apart different present found lower upper)

/-- A worker step keeps the account of every worker in order. -/
theorem Flowing.worker (flowing : Flowing earlier ranges job disk multi) {index : Nat} {event : WorkerEvent}
    {worker moved : Worker} {effect : Effect} (present : multi.workers[index]? = some worker)
    (facts : worker.StepFacts (fun _ _ => True) .background event moved effect)
    (workers : next.workers = multi.workers.set index moved)
    (stray : ∀ position, next.stray position = multi.stray position + effect.dropped position) :
    List.Forall₂ (Balanced earlier disk next) ranges next.workers := by
  rw [workers]
  have sound := flowing.controlled.sound worker (List.mem_of_getElem? present)
  refine forall₂_set_right flowing.balanced present ?_ ?_
  · exact fun range _ balanced => balanced.worker sound facts stray
  · intro other range stranger different _ found balanced
    refine ⟨balanced.start, balanced.stop, balanced.ahead, balanced.flight, fun position lower upper => ?_⟩
    have absent : effect.dropped position = 0 := by
      cases facts.moved with
      | control | stored | counted | marked | wrote | torn | passed => rfl
      | dropped offset bytes rests held =>
          obtain ⟨own, _, ownBalanced⟩ := forall₂_getElem? flowing.balanced.flip present
          exact flowing.controlled.covering_apart different present found
            (ownBalanced.flight _ held) lower upper
    rw [stray position, absent, Nat.add_zero]
    exact balanced.account position lower upper

/-- A background write that ends moves its bytes from the handle to the file and to the lost bytes. -/
theorem Flowing.landing (flowing : Flowing earlier ranges job disk multi) (present : disk.data.isSome = true)
    {index : Nat} {worker : Worker} {offset : Nat} {bytes landed : List UInt8} {handle : Handle}
    (missing : Nat → Nat) (found : multi.workers[index]? = some worker)
    (carried : worker.handle.flight = some (offset, bytes)) (free : handle.flight = none)
    (split : ∀ position, covering position (offset, landed) + missing position = covering position (offset, bytes))
    (workers : next.workers = multi.workers.set index { worker with handle := handle })
    (stray : ∀ position, next.stray position = multi.stray position + missing position) :
    List.Forall₂ (Balanced earlier (disk.write offset landed) next) ranges next.workers := by
  rw [workers]
  refine forall₂_set_right flowing.balanced found ?_ ?_
  · intro range _ balanced
    refine ⟨balanced.start, balanced.stop, balanced.ahead, by simp [free], fun position lower upper => ?_⟩
    have account := balanced.account position lower upper
    have parts := split position
    rw [Worker.carried_of_flight carried] at account
    rw [Disk.writes_write present, stray, Worker.carried_of_none free]
    dsimp only
    omega
  · intro other range stranger different _ atOther balanced
    refine ⟨balanced.start, balanced.stop, balanced.ahead, balanced.flight, fun position lower upper => ?_⟩
    obtain ⟨own, _, ownBalanced⟩ := forall₂_getElem? flowing.balanced.flip found
    have absent : covering position (offset, bytes) = 0 :=
      flowing.controlled.covering_apart different found atOther (ownBalanced.flight _ carried) lower upper
    have account := balanced.account position lower upper
    have parts := split position
    rw [Disk.writes_write present, stray]
    omega

/-- The write of a dropped handle that ends moves its bytes to the file and to the lost bytes. -/
theorem Flowing.strayed (flowing : Flowing earlier ranges job disk multi) (present : disk.data.isSome = true)
    {offset : Nat} {landed : List UInt8} (workers : next.workers = multi.workers)
    (stray : ∀ position, next.stray position + covering position (offset, landed) = multi.stray position) :
    List.Forall₂ (Balanced earlier (disk.write offset landed) next) ranges next.workers := by
  rw [workers]
  refine flowing.balanced.imp fun range worker balanced => ?_
  refine ⟨balanced.start, balanced.stop, balanced.ahead, balanced.flight, fun position lower upper => ?_⟩
  have account := balanced.account position lower upper
  have moved := stray position
  rw [Disk.writes_write present]
  omega

variable [SerdeJson Text]

/-- The data file is never removed by a call. -/
theorem Change.isSome {io : FileIo} (change : Change right io job disk multi act after next)
    (present : disk.data.isSome = true) : after.data.isSome = true := by
  cases change with
  | cancelled => exact present
  | landed | lost | orphanLanded | orphanLost => simpa [Disk.write] using present
  | worker index event worker moved effect =>
      cases effect with
      | none | add | orphan => exact present
      | write => simpa [applyEffect, Disk.write] using present
  | saver event stopping moved effect =>
      cases effect with
      | none | save => exact present
      | sync => simpa [applySaverEffect, Disk.sync] using present
  | main event _ phase move =>
      cases move with
      | notCreated | notResized | join | conclude | reopened | notReopened => exact present
      | created => rfl
      | resized => simpa [Disk.setLen] using present
      | settled ok | finalSync ok =>
          cases ok with
          | false => exact present
          | true => simpa [Disk.sync] using present
      | discarded ok | deleted ok => cases ok <;> exact present

/-- A write can be under way only while the data file is there. -/
theorem Flowing.change_ready (flowing : Flowing earlier ranges job disk multi)
    (change : Change (fun _ _ => True) .background job disk multi act after next) :
    after.data.isSome = true ∨ next.Unopened := by
  rcases flowing.ready with present | ⟨phase, grounded, none_dropped⟩
  · exact Or.inl (change.isSome present)
  · cases change with
    | cancelled => exact Or.inr ⟨phase, grounded, none_dropped⟩
    | worker index event worker moved effect running => rcases phase with same | same <;> simp [same] at running
    | saver event stopping moved effect during =>
        rcases phase with same | same <;> cases stopping <;> simp [same] at during
    | landed index worker offset bytes found carried | lost index _ worker offset bytes found carried =>
        have free := grounded worker (List.mem_of_getElem? found)
        rw [carried] at free
        cases free
    | orphanLanded index offset bytes found | orphanLost index _ offset bytes found =>
        rw [none_dropped] at found
        cases found
    | main event _ target move =>
        cases move with
        | created => exact Or.inl rfl
        | notCreated => exact Or.inr ⟨Or.inr rfl, grounded, none_dropped⟩
        | resized at_phase | notResized at_phase | settled _ at_phase | join at_phase | conclude at_phase
        | discarded _ _ at_phase | reopened at_phase | notReopened at_phase | finalSync _ at_phase
        | deleted _ at_phase => rcases phase with same | same <;> simp [same] at at_phase

/-- Every transition keeps the account of the accepted bytes in order. -/
theorem Flowing.change (flowing : Flowing earlier ranges job disk multi)
    (change : Change (fun _ _ => True) .background job disk multi act after next) :
    Flowing earlier ranges job after next := by
  refine ⟨flowing.controlled.change change, ?_,
    fun position inside => Nat.le_trans (flowing.counted position inside) (change.writes inside),
    flowing.change_ready change⟩
  have opened : (∃ worker ∈ multi.workers, worker.handle.flight ≠ none) ∨ multi.orphans ≠ [] →
      disk.data.isSome = true := by
    intro under_way
    rcases flowing.ready with present | ⟨_, grounded, none_dropped⟩
    · exact present
    · rcases under_way with ⟨worker, member, flying⟩ | dropped
      · exact absurd (grounded worker member) flying
      · exact absurd none_dropped dropped
  cases change with
  | cancelled => exact flowing.still (fun _ _ => rfl) rfl rfl
  | main event _ phase move => exact flowing.still (fun _ inside => move.writes inside) rfl rfl
  | saver event stopping moved effect => exact flowing.still (fun _ _ => writes_saver effect _) rfl rfl
  | worker index event worker moved effect running present facts parked =>
      cases effect with
      | none => exact flowing.worker present facts rfl fun _ => rfl
      | add => exact flowing.worker present facts rfl fun _ => rfl
      | orphan offset bytes =>
          refine flowing.worker present facts rfl fun position => ?_
          simp only [stray, applyEffect, Effect.dropped, List.map_cons, List.sum_cons]
          omega
      | write =>
          cases facts.moved with
          | wrote _ mode => cases mode
          | torn _ _ mode => cases mode
  | landed index worker offset bytes found carried =>
      have flight : worker.handle.flight = some (offset, bytes) := by rw [carried]; rfl
      have present := opened (Or.inl ⟨worker, List.mem_of_getElem? found, by simp [flight]⟩)
      exact flowing.landing present (fun _ => 0) found flight rfl (fun _ => rfl) rfl fun _ => rfl
  | lost index kept worker offset bytes found carried =>
      have flight : worker.handle.flight = some (offset, bytes) := by rw [carried]; rfl
      have present := opened (Or.inl ⟨worker, List.mem_of_getElem? found, by simp [flight]⟩)
      refine flowing.landing present (fun position => covering position (offset + kept, bytes.drop kept)) found
        flight rfl (fun position => covering_split position offset kept bytes) rfl fun position => ?_
      simp only [stray, List.map_cons, List.sum_cons]
      omega
  | orphanLanded index offset bytes found =>
      have present := opened (Or.inr (by rintro none_dropped; simp [none_dropped] at found))
      refine flowing.strayed present rfl fun position => ?_
      have removed := sum_map_eraseIdx (covering position) found
      simp only [stray]
      omega
  | orphanLost index kept offset bytes found =>
      have present := opened (Or.inr (by rintro none_dropped; simp [none_dropped] at found))
      refine flowing.strayed present rfl fun position => ?_
      have removed := sum_map_eraseIdx (covering position) found
      have parts := covering_split position offset kept bytes
      simp only [stray, List.map_cons, List.sum_cons]
      omega

/-- One step of the call keeps the account in order. -/
theorem Flowing.step (flowing : Flowing earlier ranges job disk multi) {last : Disk Text × Multi}
    (taken : Multi.step .background job (disk, multi) act = some last) :
    Flowing earlier ranges job last.1 last.2 :=
  flowing.change (flowing.controlled.step_change (answered_any _ _) taken)

end Multi

end FastDownloader
