/-
This file proves when every byte that a call counts has really reached the data file.
-/

import FastDownloader.Proof.MultiThread.Background

namespace FastDownloader

open Foundation

/-- A write that is not empty and stays inside the file. -/
def Placed (size : Nat) (placed : Nat × List UInt8) : Prop :=
  placed.2 ≠ [] ∧ placed.1 + placed.2.length ≤ size

theorem Placed.covers {size : Nat} {placed : Nat × List UInt8} (fits : Placed size placed) :
    placed.1 < size ∧ covering placed.1 placed = 1 := by
  have positive := List.length_pos_of_ne_nil fits.1
  have bound := fits.2
  exact ⟨by omega, if_pos ⟨Nat.le_refl _, by omega⟩⟩

theorem covering_nil (position offset : Nat) : covering position (offset, []) = 0 := by
  refine if_neg ?_
  simp only [List.length_nil]
  omega

namespace Multi

/-- A background write that ends keeps all of its bytes. It may still report an error. -/
def Lossless (multi : Multi) : Act → Prop
  | .lose index kept =>
      ∀ worker ∈ multi.workers[index]?, ∀ placed ∈ worker.handle.flight, placed.2.length ≤ kept
  | .loseOrphan index kept => ∀ placed ∈ multi.orphans[index]?, placed.2.length ≤ kept
  | _ => True

instance (multi : Multi) : ∀ act, Decidable (multi.Lossless act)
  | .lose index kept => inferInstanceAs (Decidable
      (∀ worker ∈ multi.workers[index]?, ∀ placed ∈ worker.handle.flight, placed.2.length ≤ kept))
  | .loseOrphan index kept => inferInstanceAs (Decidable (∀ placed ∈ multi.orphans[index]?, placed.2.length ≤ kept))
  | .cancel | .main _ | .worker _ _ | .saver _ | .land _ | .landOrphan _ => .isTrue trivial

/-- Every write under way is not empty and stays inside the file. -/
structure Fitted (size : Nat) (multi : Multi) : Prop where
  flights : ∀ worker ∈ multi.workers, ∀ placed ∈ worker.handle.flight, Placed size placed
  orphans : ∀ placed ∈ multi.orphans, Placed size placed

/-- Some byte of the file is among the lost bytes. -/
def Holed (size : Nat) (multi : Multi) : Prop :=
  ∃ position, position < size ∧ 0 < (multi.lost.map (covering position)).sum

variable {right : Nat → UInt8 → Prop} {Text : Type} {earlier : Nat → Nat} {ranges : List WorkerRange} {job : Job}
  {disk after : Disk Text} {multi next : Multi} {act : Act}

theorem begin_fitted (size : Nat) (job : Job) (ranges : List WorkerRange) :
    Fitted size ((Multi.start job).begin ranges) where
  flights := by
    intro worker member
    obtain ⟨range, _, rfl⟩ := List.mem_map.mp member
    simp [Worker.spawn, Handle.flight]
  orphans := by simp [Multi.start, Multi.begin]

/-- A finished call has written each byte that it counted, unless the byte is lost or still under way. -/
theorem Flowing.settled (flowing : Flowing earlier ranges job disk multi) (checked : multi.phase.checked = true)
    {position : Nat} (inside : position < job.fileSize) :
    (Named ranges position → (disk.cell position).writes + multi.stray position = earlier position) ∧
      (¬ Named ranges position → (disk.cell position).writes + multi.stray position = earlier position + 1) := by
  have grounded : ∀ worker ∈ multi.workers, worker.carried position = 0 := by
    intro worker member
    have finished := flowing.controlled.joined (Phase.checked_joined checked) worker member
    refine Worker.carried_of_none (flowing.controlled.parked worker member ?_) position
    unfold Worker.finished at finished
    unfold Worker.hasHandle
    split at finished <;> simp_all
  obtain ⟨index, range, worker, found, balanced, lower, upper, marked⟩ := flowing.owner inside
  have here := List.mem_of_getElem? found
  have account := balanced.account position lower upper
  rw [grounded worker here] at account
  constructor
  · intro named
    have below := marked.mp named
    rw [if_neg (by omega)] at account
    omega
  · intro unnamed
    have above : range.current ≤ position := Nat.le_of_not_lt fun below => unnamed (marked.mpr below)
    rw [if_pos ⟨above, flowing.controlled.complete checked worker here ▸ upper⟩] at account
    omega

variable [SerdeJson Text]

/-- Every transition keeps the writes under way inside the file. -/
theorem Fitted.change (fitted : Fitted job.fileSize multi) (controlled : Controlled right job multi)
    {io : FileIo} (change : Change right io job disk multi act after next) : Fitted job.fileSize next := by
  cases change with
  | cancelled | main | saver => exact ⟨fitted.flights, fitted.orphans⟩
  | landed index worker offset bytes present | lost index kept worker offset bytes present =>
      exact ⟨forall_mem_set fitted.flights (by simp [Handle.flight]), fitted.orphans⟩
  | orphanLanded index | orphanLost index =>
      exact ⟨fitted.flights, fun placed member => fitted.orphans placed (List.mem_of_mem_eraseIdx member)⟩
  | worker index event worker moved effect running present facts parked =>
      have member := List.mem_of_getElem? present
      have flights : ∀ placed ∈ moved.handle.flight, Placed job.fileSize placed := by
        cases facts.moved with
        | control _ flight | wrote _ _ _ flight | stored _ _ _ _ flight | counted _ _ _ flight
        | marked _ _ _ _ _ _ flight =>
            rw [flight]
            exact fitted.flights worker member
        | passed bytes _ accepts _ flight =>
            rw [flight]
            rintro placed ⟨⟩
            have bounds := (controlled.tiles.bounds worker member).2.2
            exact ⟨accepts.nonempty, Nat.le_trans accepts.bounded bounds⟩
        | torn _ _ _ _ _ _ _ flight | dropped _ _ _ _ flight => simp [flight]
      have others : ∀ other ∈ multi.workers.set index moved, ∀ placed ∈ other.handle.flight,
          Placed job.fileSize placed := forall_mem_set fitted.flights flights
      cases effect with
      | none | write | add => exact ⟨others, fitted.orphans⟩
      | orphan offset bytes =>
          refine ⟨others, fun placed found => ?_⟩
          rcases List.mem_cons.mp found with rfl | kept
          · cases facts.moved with
            | dropped _ _ _ carried => exact fitted.flights worker member _ carried
          · exact fitted.orphans placed kept

/-- Lost bytes stay lost. -/
theorem Change.lost_grows {io : FileIo} (change : Change right io job disk multi act after next) :
    ∃ more, next.lost = more ++ multi.lost := by
  cases change with
  | cancelled | main | saver | landed | orphanLanded => exact ⟨[], rfl⟩
  | worker index event worker moved effect => cases effect <;> exact ⟨[], rfl⟩
  | lost | orphanLost => exact ⟨[_], rfl⟩

theorem Holed.change {io : FileIo} {size : Nat} (holed : multi.Holed size)
    (change : Change right io job disk multi act after next) : next.Holed size := by
  obtain ⟨position, inside, positive⟩ := holed
  obtain ⟨more, grown⟩ := change.lost_grows
  refine ⟨position, inside, ?_⟩
  rw [grown, List.map_append, List.sum_append]
  omega

/-- The first missing byte of a torn background write is lost. -/
theorem Placed.holed {size offset kept : Nat} {bytes : List UInt8} {before : List (Nat × List UInt8)}
    (fits : Placed size (offset, bytes)) (short : kept < bytes.length)
    (lost : multi.lost = (offset + kept, bytes.drop kept) :: before) : multi.Holed size := by
  have missing : Placed size (offset + kept, bytes.drop kept) := by
    have bound : offset + bytes.length ≤ size := fits.2
    refine ⟨?_, ?_⟩
    · simpa using short
    · simp only [List.length_drop]
      omega
  obtain ⟨inside, covers⟩ := missing.covers
  refine ⟨_, inside, ?_⟩
  rw [lost, List.map_cons, List.sum_cons, covers]
  omega

/-- A step loses no byte or leaves a hole. -/
theorem Fitted.lossless_or_holed (fitted : Fitted job.fileSize multi)
    {io : FileIo} (change : Change right io job disk multi act after next) :
    multi.Lossless act ∨ next.Holed job.fileSize := by
  cases change with
  | cancelled | main | saver | landed | orphanLanded | worker => exact Or.inl trivial
  | lost index kept worker offset bytes present carried =>
      by_cases short : kept < bytes.length
      · have fits := fitted.flights worker (List.mem_of_getElem? present) (offset, bytes)
          (by simp [carried, Handle.flight])
        exact Or.inr (Placed.holed fits short rfl)
      · refine Or.inl fun other found placed flight => ?_
        obtain rfl := Option.some.inj (present.symm.trans found)
        rw [carried] at flight
        obtain rfl := Option.some.inj flight
        exact Nat.le_of_not_lt short
  | orphanLost index kept offset bytes present =>
      by_cases short : kept < bytes.length
      · exact Or.inr (Placed.holed (fitted.orphans _ (List.mem_of_getElem? present)) short rfl)
      · refine Or.inl fun placed found => ?_
        obtain rfl := Option.some.inj (present.symm.trans found)
        exact Nat.le_of_not_lt short

/-- A step that loses no byte adds nothing to the lost bytes. -/
theorem Change.lost_nothing {io : FileIo} (change : Change right io job disk multi act after next)
    (lossless : multi.Lossless act) (position : Nat) :
    (next.lost.map (covering position)).sum = (multi.lost.map (covering position)).sum := by
  have nothing : ∀ (bytes : List UInt8) (offset kept : Nat), bytes.length ≤ kept →
      covering position (offset + kept, bytes.drop kept) = 0 := by
    intro bytes offset kept whole
    rw [List.drop_of_length_le whole, covering_nil]
  cases change with
  | cancelled | main | saver | landed | orphanLanded => rfl
  | worker index event worker moved effect => cases effect <;> rfl
  | lost index kept worker offset bytes present carried =>
      have whole := lossless worker present (offset, bytes) (by simp [carried, Handle.flight])
      simp [nothing bytes offset kept whole]
  | orphanLost index kept offset bytes present =>
      simp [nothing bytes offset kept (lossless _ present)]

/-- The account of a call whose writes stay inside the file. -/
structure Followed (earlier : Nat → Nat) (ranges : List WorkerRange) (job : Job) (state : Disk Text × Multi) :
    Prop where
  flowing : Flowing earlier ranges job state.1 state.2
  fitted : Fitted job.fileSize state.2

/-- Each step keeps the account, loses no byte or leaves a hole, and fills no hole. -/
theorem Followed.step {state last : Disk Text × Multi} (followed : Followed earlier ranges job state)
    (taken : Multi.step .background job state act = some last) :
    Followed earlier ranges job last ∧ (state.2.Lossless act ∨ last.2.Holed job.fileSize) ∧
      (state.2.Holed job.fileSize → last.2.Holed job.fileSize) := by
  obtain ⟨flowing, fitted⟩ := followed
  have change := flowing.controlled.step_change (answered_any _ _) taken
  exact ⟨⟨flowing.change change, fitted.change flowing.controlled change⟩, fitted.lossless_or_holed change,
    fun holed => holed.change change⟩

omit [SerdeJson Text] in
/-- A byte that was written by a finished call is neither lost nor under way. -/
theorem Flowing.calm (flowing : Flowing earlier ranges job disk multi) (checked : multi.phase.checked = true)
    {position : Nat} (inside : position < job.fileSize)
    (written : ¬ Named ranges position → earlier position < (disk.cell position).writes) :
    multi.stray position = 0 := by
  have settled := flowing.settled checked inside
  by_cases named : Named ranges position
  · have counted := flowing.counted position inside
    have account := settled.1 named
    omega
  · have account := settled.2 named
    have counted := written named
    omega

/-- A call that returns without an error has written every byte that it counted exactly when no background write lost
a byte and no write of a dropped handle is still under way. -/
theorem counted_written {file : Option Text} {acts : List Act} {last : Disk Text × Multi}
    (chosen : chooseRanges job job.fileSize file = some ranges)
    (run : Run (Multi.step .background job) (fun _ _ => True) (disk, (Multi.start job).begin ranges) acts last)
    (returned : last.2.outcome = some (.ok ())) :
    (∀ position, position < job.fileSize → ¬ Named ranges position →
        (disk.cell position).writes < (last.1.cell position).writes) ↔
      Admitted (Multi.step .background job) (fun state act => state.2.Lossless act)
        (disk, (Multi.start job).begin ranges) acts ∧ last.2.orphans = [] := by
  obtain ⟨cover, nonempty⟩ := chooseRanges_cover chosen
  have ended := (outcome_iff _ _).mp returned
  have checked : last.2.phase.checked = true := by simp [ended, Phase.checked]
  constructor
  · intro written
    have initial : Followed (fun position => (disk.cell position).writes) ranges job
        (disk, (Multi.start job).begin ranges) := ⟨begin_flowing cover nonempty, begin_fitted _ _ _⟩
    obtain ⟨flowing, fitted⟩ :=
      run.invariant (Followed _ ranges job) (fun _ _ _ held _ taken => (held.step taken).1) initial
    have calm : ∀ position, position < job.fileSize → last.2.stray position = 0 := fun position inside =>
      flowing.calm checked inside (written position inside)
    constructor
    · refine (run.admitted_or (Followed _ ranges job) (fun state => state.2.Holed job.fileSize)
        (fun _ _ _ held taken => held.step taken) initial).resolve_right ?_
      rintro ⟨position, inside, positive⟩
      have still := calm position inside
      simp only [stray] at still
      omega
    · by_contra dropped
      obtain ⟨placed, rest, found⟩ := List.exists_cons_of_ne_nil dropped
      obtain ⟨inside, covers⟩ := (fitted.orphans placed (by simp [found])).covers
      have still := calm _ inside
      simp only [stray, found, List.map_cons, List.sum_cons, covers] at still
      omega
  · rintro ⟨admitted, settled⟩ position inside unnamed
    have whole := (run.guarded admitted).invariant
      (fun state => Flowing (fun position => (disk.cell position).writes) ranges job state.1 state.2 ∧
        (state.2.lost.map (covering position)).sum = 0) ?_ ⟨begin_flowing cover nonempty, rfl⟩
    · have account := (whole.1.settled checked inside).2 unnamed
      have still : last.2.stray position = 0 := by simp [stray, settled, whole.2]
      omega
    · rintro ⟨now, multi⟩ act after ⟨held, none_lost⟩ lossless taken
      have change := held.controlled.step_change (answered_any _ _) taken
      exact ⟨held.change change, (change.lost_nothing lossless position).trans none_lost⟩

theorem fresh_unnamed {size : Nat} (position : Nat) : ¬ Named [⟨0, 0, size⟩] position :=
  not_named_of_fresh (by simp) position

/-- The bytes of the one-byte resource go through a background write that ends like this. -/
def backgroundActs (ends : List Act) : List Act :=
  [.main (.created true), .main (.resized true), .main (.synced true), .worker 0 .check,
    .worker 0 (.reply (some ⟨206, none, none, [7]⟩)), .worker 0 (.opened true), .worker 0 (.chunk 1),
    .worker 0 .wrote, .worker 0 .store, .worker 0 .count] ++ ends ++
  [.worker 0 .check, .main .join, .saver (.opened true), .saver .halt, .saver .load, .saver .load,
    .saver (.saved true), .main .conclude, .main (.created true), .main (.synced true), .main (.deleted true)]

/-- The write lands before the flush. -/
def landedActs : List Act := backgroundActs [.land 0, .worker 0 (.flushed true)]

/-- The write fails. The flush reports it, and the retry starts behind the missing byte. -/
def lostActs : List Act := backgroundActs [.lose 0 0, .worker 0 (.flushed false), .worker 0 .slept]

def backgroundRun (acts : List Act) : Option (Disk DownloadState × Multi) :=
  replay (Multi.step .background oneByte) (⟨none, none⟩, (Multi.start oneByte).begin [⟨0, 0, 1⟩]) acts

theorem counted_written_landed : 0 < (((backgroundRun landedActs).get rfl).1.cell 0).writes := by
  have chosen : chooseRanges oneByte oneByte.fileSize (none : Option DownloadState) = some [⟨0, 0, 1⟩] := rfl
  have run : Run (Multi.step .background oneByte) (fun _ _ => True)
      (⟨none, none⟩, (Multi.start oneByte).begin [⟨0, 0, 1⟩]) landedActs ((backgroundRun landedActs).get rfl) :=
    run_of_replay (by decide +kernel) (Option.some_get _).symm
  exact (counted_written chosen run rfl).mpr ⟨by decide +kernel, rfl⟩ 0 (by decide) (fresh_unnamed 0)

/-- One failed background write is skipped over: the call returns without an error and the byte is missing. -/
theorem counted_not_written :
    ¬ ∀ acts last, Run (Multi.step .background oneByte) (fun _ _ => True)
        ((⟨none, none⟩ : Disk DownloadState), (Multi.start oneByte).begin [⟨0, 0, 1⟩]) acts last →
      last.2.outcome = some (.ok ()) → ∀ position, position < oneByte.fileSize →
        ¬ Named [⟨0, 0, 1⟩] position → 0 < (last.1.cell position).writes := by
  intro written
  have run : Run (Multi.step .background oneByte) (fun _ _ => True)
      (⟨none, none⟩, (Multi.start oneByte).begin [⟨0, 0, 1⟩]) lostActs ((backgroundRun lostActs).get rfl) :=
    run_of_replay (by decide +kernel) (Option.some_get _).symm
  exact absurd (written _ _ run rfl 0 (by decide) (fresh_unnamed 0)) (by decide +kernel)

end Multi

end FastDownloader
