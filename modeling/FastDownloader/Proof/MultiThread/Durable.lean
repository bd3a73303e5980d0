/-
This file proves when saved positions never get ahead of the durable bytes.
-/

import FastDownloader.Proof.MultiThread.Background

namespace FastDownloader

open Foundation

variable {Text : Type}

/-- A sync that reaches a cell makes it durable. No cell behind the end has been written. -/
theorem Disk.durable_sync {disk : Disk Text} {position : Nat} (written : 0 < (disk.cell position).writes) :
    (disk.sync.cell position).durable = true := by
  unfold cell at written
  unfold cell sync
  cases present : disk.data with
  | none =>
      rw [present] at written
      exact absurd written (by simp [Cell.hole])
  | some file =>
      rw [present] at written
      simp only [Option.getD_some] at written
      simp only [Option.map_some, Option.getD_some, List.getElem?_map]
      cases found : file[position]? with
      | none =>
          rw [found] at written
          exact absurd written (by simp [Cell.hole])
      | some cell => rfl

namespace Multi

/-- The byte of this offset is in the page cache. It was written by this call, or the call took it over. -/
def Arrived (ranges : List WorkerRange) (begun disk : Disk Text) (position : Nat) : Prop :=
  (begun.cell position).writes < (disk.cell position).writes ∨ Named ranges position

/-- A checkpoint may be saved when all its bytes are in the page cache and a sync follows, or they are durable. -/
def Ready (ranges : List WorkerRange) (begun disk : Disk Text) (taken : DownloadState) (synced : Bool) : Prop :=
  ∀ range ∈ taken.workers, ∀ position < range.current, range.start ≤ position →
    Arrived ranges begun disk position ∧ (synced = true ∨ (disk.cell position).durable = true)

/-- The checkpoint that a step of the state task lets through to its save, and whether it was synced. -/
def released (job : Job) (multi : Multi) : Act → Option (DownloadState × Bool)
  | .saver (.synced ok) => match multi.saver.pc with
    | .syncing taken => some (taken, ok)
    | _ => none
  | .saver .load => match multi.saver.pc with
    | .loading loaded =>
        if multi.saver.syncFile = false ∧ multi.workers.length ≤ loaded.length then
          some (snapshot job multi.workers loaded, false)
        else none
    | _ => none
  | _ => none

/-- Every checkpoint is ready when the state task lets it through. -/
def Flushed (ranges : List WorkerRange) (job : Job) (begun : Disk Text) (state : Disk Text × Multi) (act : Act) :
    Prop :=
  ∀ checkpoint ∈ state.2.released job act, Ready ranges begun state.1 checkpoint.1 checkpoint.2

/-- The byte of this offset is the one that a position stands for, and it is durable. -/
structure Firm (ranges : List WorkerRange) (job : Job) (begun disk : Disk Text) (position : Nat) : Prop where
  inside : position < job.fileSize
  arrived : Arrived ranges begun disk position
  durable : (disk.cell position).durable = true

variable {ranges : List WorkerRange} {job : Job} {begun disk after : Disk Text} {multi next : Multi} {act : Act}
  {position : Nat}

/-- No write under way covers a byte that has arrived. -/
theorem Flowing.quiet (flowing : Flowing (fun position => (begun.cell position).writes) ranges job disk multi)
    (inside : position < job.fileSize) (arrived : Arrived ranges begun disk position) :
    (∀ worker ∈ multi.workers, ∀ placed ∈ worker.handle.flight, covering position placed = 0) ∧
      ∀ placed ∈ multi.orphans, covering position placed = 0 := by
  obtain ⟨index, range, owner, found, balanced, lower, upper, marked⟩ := flowing.owner inside
  have counted := flowing.counted position inside
  have account := balanced.account position lower upper
  -- The byte has been counted once already, so nothing is left for the handle or the dropped writes.
  have settled : owner.carried position = 0 ∧ multi.stray position = 0 := by
    rcases arrived with written | named
    · split_ifs at account <;> omega
    · have below := marked.mp named
      rw [if_neg (by omega)] at account
      omega
  constructor
  · intro worker member placed flight
    obtain ⟨other, atOther⟩ := List.getElem?_of_mem member
    by_cases same : other = index
    · subst same
      obtain rfl := Option.some.inj (found.symm.trans atOther)
      rw [← Worker.carried_of_flight flight]
      exact settled.1
    · obtain ⟨_, _, strangerBalanced⟩ := forall₂_getElem? flowing.balanced.flip atOther
      exact flowing.controlled.covering_apart same atOther found (strangerBalanced.flight _ flight) lower upper
  · intro placed member
    have none_dropped := (Nat.add_eq_zero_iff.mp settled.2).1
    exact List.sum_eq_zero_iff.mp none_dropped _ (List.mem_map_of_mem member)

/-- A write that does not cover the offset leaves its cell alone. -/
theorem cell_write_apart {offset position : Nat} {bytes : List UInt8}
    (apart : covering position (offset, bytes) = 0) :
    (disk.write offset bytes).cell position = disk.cell position := by
  refine Disk.cell_write_outside fun covered => ?_
  have once : covering position (offset, bytes) = 1 := if_pos covered
  omega

variable [SerdeJson Text]

/-- Later steps leave a durable byte in place or sync it again. -/
theorem Firm.change (firm : Firm ranges job begun disk position)
    (flowing : Flowing (fun position => (begun.cell position).writes) ranges job disk multi)
    (change : Change (fun _ _ => True) .background job disk multi act after next) :
    Firm ranges job begun after position := by
  obtain ⟨quiet, undropped⟩ := flowing.quiet firm.inside firm.arrived
  have kept : after.cell position = disk.cell position ∨ after.cell position = (disk.cell position).sync := by
    cases change with
    | cancelled => exact Or.inl rfl
    | main event _ phase move =>
        cases move with
        | notCreated | notResized | join | conclude | reopened | notReopened => exact Or.inl rfl
        | created => exact Or.inl (Disk.cell_openCreate position)
        | resized => exact Or.inl (Disk.cell_setLen firm.inside)
        | settled ok | finalSync ok =>
            cases ok with
            | false => exact Or.inl rfl
            | true => exact disk.cell_sync position
        | discarded ok | deleted ok => cases ok <;> exact Or.inl rfl
    | worker index event worker moved effect running present facts =>
        cases facts.moved with
        | control | stored | counted | marked | passed | dropped => exact Or.inl rfl
        | wrote _ mode => cases mode
        | torn _ _ mode => cases mode
    | saver event stopping moved effect =>
        cases effect with
        | none | save => exact Or.inl rfl
        | sync => exact disk.cell_sync position
    | landed index worker offset bytes found carried =>
        have apart := quiet worker (List.mem_of_getElem? found) (offset, bytes) (by simp [carried, Handle.flight])
        exact Or.inl (cell_write_apart apart)
    | lost index kept worker offset bytes found carried =>
        have apart := quiet worker (List.mem_of_getElem? found) (offset, bytes) (by simp [carried, Handle.flight])
        have parts := covering_split position offset kept bytes
        exact Or.inl (cell_write_apart (by omega))
    | orphanLanded index offset bytes found =>
        exact Or.inl (cell_write_apart (undropped _ (List.mem_of_getElem? found)))
    | orphanLost index kept offset bytes found =>
        have apart := undropped _ (List.mem_of_getElem? found)
        have parts := covering_split position offset kept bytes
        exact Or.inl (cell_write_apart (by omega))
  rcases kept with same | synced
  · exact ⟨firm.inside, by simpa only [Arrived, same] using firm.arrived, by rw [same]; exact firm.durable⟩
  · exact ⟨firm.inside, by unfold Arrived; rw [synced]; exact firm.arrived, by rw [synced]; rfl⟩

/-- A call whose saved positions, and those about to be saved, stand for durable bytes. -/
structure Anchored (ranges : List WorkerRange) (job : Job) (begun disk : Disk Text) (multi : Multi) : Prop where
  flowing : Flowing (fun position => (begun.cell position).writes) ranges job disk multi
  inherited : ∀ position, Named ranges position → Firm ranges job begun disk position
  stored : ∀ state, load disk.dlstate = .ok state → ∀ position, Named state.workers position →
    Firm ranges job begun disk position
  saving : ∀ state, multi.saver.pc = .saving state → ∀ position, Named state.workers position →
    Firm ranges job begun disk position

/-- A checkpoint that is let through when it is ready stands for durable bytes. -/
theorem Anchored.release (anchored : Anchored ranges job begun disk multi) {taken : DownloadState} {ok : Bool}
    (ready : Ready ranges begun disk taken ok) (inside : position < job.fileSize)
    (named : Named taken.workers position) :
    Firm ranges job begun (if ok then disk.sync else disk) position := by
  obtain ⟨range, member, lower, upper⟩ := named
  obtain ⟨arrived, durable⟩ := ready range member position upper lower
  cases ok with
  | false => exact ⟨inside, arrived, durable.resolve_left (by simp)⟩
  | true =>
      rcases arrived with written | inherited
      · refine ⟨inside, Or.inl ?_, Disk.durable_sync (by omega)⟩
        rw [if_pos rfl, Disk.writes_sync]
        exact written
      · have firm := anchored.inherited position inherited
        refine ⟨inside, Or.inr inherited, ?_⟩
        rw [if_pos rfl]
        rcases disk.cell_sync position with same | synced
        · rw [same]
          exact firm.durable
        · rw [synced]
          rfl

/-- What the state task is about to save was there before, or this step lets it through. -/
theorem Change.saving_cases {right : Nat → UInt8 → Prop} {io : FileIo}
    (change : Change right io job disk multi act after next) {state : DownloadState}
    (held : next.saver.pc = .saving state) :
    multi.saver.pc = .saving state ∨
      ∃ ok : Bool, (state, ok) ∈ multi.released job act ∧ after = if ok then disk.sync else disk := by
  cases change with
  | cancelled | main | landed | lost | orphanLanded | orphanLost => exact Or.inl held
  | worker index event worker moved effect => cases effect <;> exact Or.inl held
  | saver event stopping moved effect during move =>
      cases move with
      | broken | opened | tick | halt | load => cases held
      | take loaded at_pc complete pc chosen =>
          subst chosen
          dsimp only at held
          split_ifs at held with durable
          cases held
          refine Or.inr ⟨false, ?_, rfl⟩
          have all := List.getElem?_eq_none_iff.mp complete
          simp [Multi.released, at_pc, durable, all]
      | synced ok taken at_pc =>
          cases held
          exact Or.inr ⟨ok, by simp [Multi.released, at_pc], by cases ok <;> rfl⟩
      | saved ok taken at_pc =>
          dsimp only at held
          split_ifs at held

/-- A step whose checkpoint is ready keeps the saved positions behind durable bytes. -/
theorem Anchored.step (anchored : Anchored ranges job begun disk multi)
    (flushed : Flushed ranges job begun (disk, multi) act) {last : Disk Text × Multi}
    (taken : Multi.step .background job (disk, multi) act = some last) :
    Anchored ranges job begun last.1 last.2 := by
  have flowing := anchored.flowing
  have change := flowing.controlled.step_change (answered_any _ _) taken
  have moved := flowing.change change
  refine ⟨moved, fun position named => (anchored.inherited position named).change flowing change, ?_, ?_⟩
  · intro state loaded position named
    refine Firm.change ?_ flowing change
    rcases change.load_cases flowing.controlled loaded with before | ⟨at_pc, -⟩
    · exact anchored.stored state before position named
    · exact anchored.saving state at_pc position named
  · intro state held position named
    rcases change.saving_cases held with before | ⟨ok, passed, same⟩
    · exact (anchored.saving state before position named).change flowing change
    · have snapshot : Taken job last.2.workers state := by
        have sound := moved.controlled.saver
        simpa only [Saver.Sound, held] using sound
      have cover := snapshot.cover moved.controlled.tiles
        fun worker member => (moved.controlled.bounded worker member).2
      rw [same]
      exact anchored.release (flushed _ passed) (cover.named_lt named) named

/-- When every checkpoint that is let through to its save has all its bytes in the page cache and is synced, each
offset that the state file names is durable at every moment, so a power loss takes no saved byte away. -/
theorem saved_durable {acts : List Act} {last : Disk Text × Multi}
    (chosen : chooseRanges job job.fileSize disk.dlstate = some ranges)
    (resumed : ∀ state, load disk.dlstate = .ok state → state.workers = ranges)
    (kept : ∀ position, Named ranges position → (disk.cell position).durable = true)
    (run : Run (Multi.step .background job) (Flushed ranges job disk) (disk, (Multi.start job).begin ranges) acts
      last) :
    ∀ state, load last.1.dlstate = .ok state → ∀ position, Named state.workers position →
      (last.1.cell position).durable = true ∧
        ((disk.cell position).writes < (last.1.cell position).writes ∨ Named ranges position) := by
  obtain ⟨cover, nonempty⟩ := chooseRanges_cover chosen
  have inherited : ∀ position, Named ranges position → Firm ranges job disk disk position :=
    fun position named => ⟨cover.named_lt named, Or.inr named, kept position named⟩
  have anchored : Anchored ranges job disk last.1 last.2 := by
    refine run.invariant (fun state => Anchored ranges job disk state.1 state.2)
      (fun _ _ _ held flushed taken => held.step flushed taken) ⟨begin_flowing cover nonempty, inherited, ?_, ?_⟩
    · exact fun state loaded position named => inherited position (resumed state loaded ▸ named)
    · exact fun _ absent => by cases absent
  intro state loaded position named
  have firm := anchored.stored state loaded position named
  exact ⟨firm.durable, firm.arrived⟩

instance (ranges : List WorkerRange) (begun disk : Disk Text) (position : Nat) :
    Decidable (Arrived ranges begun disk position) :=
  inferInstanceAs (Decidable (_ ∨ ∃ range ∈ ranges, range.start ≤ position ∧ position < range.current))

instance (ranges : List WorkerRange) (begun disk : Disk Text) (taken : DownloadState) (synced : Bool) :
    Decidable (Ready ranges begun disk taken synced) :=
  inferInstanceAs (Decidable (∀ range ∈ taken.workers, ∀ position < range.current, range.start ≤ position → _))

instance (ranges : List WorkerRange) (job : Job) (begun : Disk Text) (state : Disk Text × Multi) (act : Act) :
    Decidable (Flushed ranges job begun state act) :=
  inferInstanceAs (Decidable (∀ checkpoint ∈ state.2.released job act, _))

/-- The one-byte resource is downloaded with durable resume. -/
def durableByte : Job := { oneByte with cfg := { durableResume := true } }

/-- The bytes are handed over and stored before the first checkpoint, whose sync and background write come in this
order. -/
def checkpointActs (between : List Act) : List Act :=
  [.main (.created true), .main (.resized true), .main (.synced true), .worker 0 .check,
    .worker 0 (.reply (some ⟨206, none, none, [7]⟩)), .worker 0 (.opened true), .worker 0 (.chunk 1),
    .worker 0 .wrote, .worker 0 .store, .saver (.opened true), .saver .tick, .saver .load, .saver .load] ++
  between ++ [.saver (.saved true)]

def checkpointRun (acts : List Act) : Option (Disk DownloadState × Multi) :=
  replay (Multi.step .background durableByte) (⟨none, none⟩, (Multi.start durableByte).begin [⟨0, 0, 1⟩]) acts

theorem saved_durable_landed :
    (((checkpointRun (checkpointActs [.land 0, .saver (.synced true)])).get rfl).1.cell 0).durable = true := by
  have run : Run (Multi.step .background durableByte) (Flushed [⟨0, 0, 1⟩] durableByte ⟨none, none⟩)
      (⟨none, none⟩, (Multi.start durableByte).begin [⟨0, 0, 1⟩])
      (checkpointActs [.land 0, .saver (.synced true)])
      ((checkpointRun (checkpointActs [.land 0, .saver (.synced true)])).get rfl) :=
    run_of_replay (by decide +kernel) (Option.some_get _).symm
  have chosen : chooseRanges durableByte durableByte.fileSize (none : Option DownloadState) = some [⟨0, 0, 1⟩] := rfl
  have unnamed : ∀ position, Named [⟨0, 0, 1⟩] position →
      ((⟨none, none⟩ : Disk DownloadState).cell position).durable = true :=
    fun position named => absurd named (not_named_of_fresh (by simp) position)
  exact (saved_durable chosen (fun _ absent => by cases absent) unnamed run _ rfl 0
    ⟨⟨0, 1, 1⟩, by decide, by decide, by decide⟩).1

/-- The sync runs before the background write of the stored byte, so the saved position gets ahead of the file. -/
theorem saved_not_durable :
    ¬ ∀ acts last, Run (Multi.step .background durableByte) (fun _ _ => True)
        ((⟨none, none⟩ : Disk DownloadState), (Multi.start durableByte).begin [⟨0, 0, 1⟩]) acts last →
      ∀ state, load last.1.dlstate = .ok state → ∀ position, Named state.workers position →
        (last.1.cell position).durable = true := by
  intro durable
  have run : Run (Multi.step .background durableByte) (fun _ _ => True)
      (⟨none, none⟩, (Multi.start durableByte).begin [⟨0, 0, 1⟩]) (checkpointActs [.saver (.synced true), .land 0])
      ((checkpointRun (checkpointActs [.saver (.synced true), .land 0])).get rfl) :=
    run_of_replay (by decide +kernel) (Option.some_get _).symm
  have held := durable _ _ run _ rfl 0 ⟨⟨0, 1, 1⟩, by decide, by decide, by decide⟩
  exact absurd held (by decide +kernel)

end Multi

end FastDownloader
