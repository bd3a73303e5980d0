/-
This file proves which histories of calls keep every saved position behind a real write.
-/

import FastDownloader.Proof.MultiThread.Assembly
import FastDownloader.Proof.MultiThread.Restart

namespace FastDownloader

open Foundation

/-- This ledger counts the writes at each offset against the counts of an earlier moment. -/
def newWrites (earlier : Nat → Nat) : Ledger fun _ _ => True where
  todo := fun position cell => earlier position ≤ cell.writes
  done := fun position cell => earlier position < cell.writes
  put := fun _ _ _ todo _ => Nat.lt_succ_of_le todo
  sync_todo := fun _ _ todo => todo
  sync_done := fun _ _ done => done

theorem newWrites_tears (earlier : Nat → Nat) : (newWrites earlier).Tears :=
  fun _ _ _ todo _ => Nat.le_succ_of_le todo

/-- All calls see a resource of one size. -/
def OneSize (size : Nat) {Text : Type} (_session : Session (Disk Text) Multi Job) : Move Job Act → Prop
  | .start job => job.info.size = some size
  | _ => True

/-- All calls see a resource of one size, and no range request is answered with 416. -/
def Satisfiable (size : Nat) {Text : Type} (_session : Session (Disk Text) Multi Job) : Move Job Act → Prop
  | .start job => job.info.size = some size
  | .step act => ∀ response ∈ act.answer, response.status ≠ 416
  | _ => True

instance (size : Nat) {Text : Type} (session : Session (Disk Text) Multi Job) :
    ∀ move, Decidable (OneSize size session move)
  | .start job => inferInstanceAs (Decidable (job.info.size = some size))
  | .step _ | .finish | .kill => .isTrue trivial

instance (size : Nat) {Text : Type} (session : Session (Disk Text) Multi Job) :
    ∀ move, Decidable (Satisfiable size session move)
  | .start job => inferInstanceAs (Decidable (job.info.size = some size))
  | .step act => inferInstanceAs (Decidable (∀ response ∈ act.answer, response.status ≠ 416))
  | .finish | .kill => .isTrue trivial

namespace Multi

variable {Text : Type} [SerdeJson Text] {job : Job} {disk : Disk Text} {multi : Multi}

/-- Every offset that a loadable state names has been written since the earlier moment. -/
structure Backed (earlier : Nat → Nat) (size : Nat) (disk : Disk Text) : Prop where
  counted : ∀ position, position < size → earlier position ≤ (disk.cell position).writes
  named : ∀ state, load disk.dlstate = .ok state → state.fileSize = size ∧
    ∀ position, Named state.workers position → earlier position < (disk.cell position).writes

theorem Backed.named_lt {earlier : Nat → Nat} {size : Nat} (backed : Backed earlier size disk)
    {state : DownloadState} (loaded : load disk.dlstate = .ok state) {position : Nat}
    (named : Named state.workers position) : position < size := by
  obtain ⟨_, _, _, valid⟩ := (load_ok_iff _ _).mp loaded
  have cover := ((validate_ok_iff state).mp valid).2.2
  exact (backed.named state loaded).1 ▸ cover.named_lt named

/-- A transition keeps the saved positions behind real writes. -/
theorem Backed.change {earlier : Nat → Nat} {size : Nat} {act : Act} {after : Disk Text} {next : Multi}
    (backed : Backed earlier size disk) (sized : job.fileSize = size)
    (tracked : Tracked (newWrites earlier) job disk multi) (level : multi.Level)
    (change : Change (fun _ _ => True) .through job disk multi act after next) : Backed earlier size after := by
  have grows : ∀ position, position < size → (disk.cell position).writes ≤ (after.cell position).writes :=
    fun position inside => change.writes (sized ▸ inside)
  refine ⟨fun position inside => (backed.counted position inside).trans (grows position inside), ?_⟩
  intro state loaded
  rcases change.load_cases tracked.controlled loaded with before | ⟨-, snapshot⟩
  · obtain ⟨length, written⟩ := backed.named state before
    refine ⟨length, fun position named => ?_⟩
    exact Nat.lt_of_lt_of_le (written position named) (grows position (backed.named_lt before named))
  · have cover := snapshot.cover tracked.controlled.tiles
      fun worker member => (tracked.controlled.bounded worker member).2
    refine ⟨snapshot.fileSize.trans sized, fun position named => ?_⟩
    exact Nat.lt_of_lt_of_le (tracked.taken_done level snapshot named)
      (grows position (sized ▸ cover.named_lt named))

/-- In every history without an answer 416, each offset that the state file names was written since the history
began, and a call that returns without an error leaves no unwritten hole. -/
theorem history_backed {size : Nat} {moves : List (Move Job Act)} {last : Session (Disk Text) Multi Job}
    (fresh : disk.dlstate = none)
    (run : Run (multiThread Text .through).session (Satisfiable size) ⟨disk, none⟩ moves last) :
    (∀ state, load last.store.dlstate = .ok state → ∀ position, Named state.workers position →
      (disk.cell position).writes < (last.store.cell position).writes) ∧
    (∀ job multi, last.active = some (job, multi) → multi.outcome = some (.ok ()) → ∀ position, position < size →
      (disk.cell position).writes < (last.store.cell position).writes) := by
  have keeps := keeps_of_begun .through (Satisfiable size) (fun job => job.fileSize = size)
    (Backed (fun position => (disk.cell position).writes) size)
    (fun job (store : Disk Text) multi =>
      Tracked (newWrites fun position => (disk.cell position).writes) job store multi ∧ multi.Level ∧
        Backed (fun position => (disk.cell position).writes) size store)
    (fun _ job admitted => by simp [Job.fileSize, (show job.info.size = some size from admitted)])
    ?_ ?_ (fun _ _ _ _ held _ _ => held.2.2) (fun _ _ _ held _ => held.2.2)
  · have held := keeps.invariant run ⟨fun _ _ => Nat.le_refl _, by simp [fresh, load]⟩
    obtain ⟨store, active⟩ := last
    cases active with
    | none => exact ⟨fun state loaded => (held.named state loaded).2, fun _ _ absent => by cases absent⟩
    | some process =>
        obtain ⟨job, multi⟩ := process
        obtain ⟨sized, ⟨unbegun, held⟩ | ⟨tracked, level, held⟩⟩ := held
        · refine ⟨fun state loaded => (held.named state loaded).2, ?_⟩
          rintro _ _ ⟨⟩ returned
          exact absurd returned unbegun.outcome
        · refine ⟨fun state loaded => (held.named state loaded).2, ?_⟩
          rintro _ _ ⟨⟩ returned position inside
          have ended := (outcome_iff _ _).mp returned
          exact tracked.complete (by simp [ended, Phase.checked]) (sized ▸ inside)
  · intro job store multi readable ranges sized backed unbegun _ chosen
    obtain ⟨cover, nonempty⟩ := chooseRanges_cover chosen
    refine ⟨begin_tracked cover nonempty (by rw [unbegun.saver]; rfl) unbegun.orphans ?_ ?_,
      begin_level _ _, backed⟩
    · intro position _ named
      rcases chooseRanges_cases chosen with ⟨state, loaded, -, rfl⟩ | ⟨-, split⟩
      · cases readable with
        | false => cases loaded
        | true => exact (backed.named state loaded).2 position named
      · exact absurd named (not_named_of_fresh (splitWorkers_cover split).2 position)
    · exact fun position inside _ => backed.counted position (sized ▸ inside)
  · rintro job store multi act next sized ⟨tracked, level, backed⟩ admitted taken
    have change := tracked.controlled.step_change (answered_any _ _) taken
    exact ⟨tracked.change change (Or.inl (newWrites_tears _)),
      level.change admitted change,
      backed.change sized tracked level change⟩

/-- One call that downloads the one byte. -/
def oneByteMoves : List (Move Job Act) :=
  .start oneByte :: .step (.main (.load true)) :: oneByteActs.map .step

def oneByteHistory : Option (Session (Disk DownloadState) Multi Job) :=
  replay (multiThread DownloadState .through).session ⟨⟨none, none⟩, none⟩ oneByteMoves

theorem history_backed_oneByte : 0 < ((oneByteHistory.get rfl).store.cell 0).writes := by
  have run : Run (multiThread DownloadState .through).session (Satisfiable 1) ⟨⟨none, none⟩, none⟩
      oneByteMoves (oneByteHistory.get rfl) :=
    run_of_replay (by decide +kernel) (Option.some_get _).symm
  exact (history_backed rfl run).2 _ _ rfl rfl 0 (by decide)

/-- The server answers 416, and the last checkpoint of the failed call names the missing byte. -/
def unsatisfiableMoves : List (Move Job Act) :=
  .start oneByte :: [.main (.load true), .main (.created true), .main (.resized true), .main (.synced true),
    .worker 0 .check, .worker 0 (.reply (some ⟨416, none, none, []⟩)), .worker 0 .check, .main .join,
    .saver (.opened true), .saver .halt, .saver .load, .saver .load, .saver (.saved true)].map .step

/-- The next call takes the byte as loaded and returns without an error. -/
def resumedMoves : List (Move Job Act) :=
  unsatisfiableMoves ++ .step (.main .conclude) :: .finish :: .start oneByte ::
    [.main (.load true), .main (.created true), .main (.resized true), .main (.synced true), .worker 0 .check,
      .main .join, .saver (.opened true), .saver .halt, .saver .load, .saver .load, .saver (.saved true),
      .main .conclude, .main (.created true), .main (.synced true), .main (.deleted true)].map .step

def unsatisfiableHistory (moves : List (Move Job Act)) : Option (Session (Disk DownloadState) Multi Job) :=
  replay (multiThread DownloadState .through).session ⟨⟨none, none⟩, none⟩ moves

/-- With answers 416 a saved position need not be backed by a write, and a later call can return with a hole. -/
theorem history_not_backed :
    ¬ (∀ moves last, Run (multiThread DownloadState .through).session (OneSize 1) ⟨⟨none, none⟩, none⟩ moves last →
      ∀ state, load last.store.dlstate = .ok state → ∀ position, Named state.workers position →
        0 < (last.store.cell position).writes) ∧
    ¬ (∀ moves last, Run (multiThread DownloadState .through).session (OneSize 1) ⟨⟨none, none⟩, none⟩ moves last →
      ∀ job multi, last.active = some (job, multi) → multi.outcome = some (.ok ()) → ∀ position, position < 1 →
        0 < (last.store.cell position).writes) := by
  constructor
  · intro backed
    have run : Run (multiThread DownloadState .through).session (OneSize 1) ⟨⟨none, none⟩, none⟩
        unsatisfiableMoves ((unsatisfiableHistory unsatisfiableMoves).get rfl) :=
      run_of_replay (by decide +kernel) (Option.some_get _).symm
    have written := backed _ _ run _ rfl 0 ⟨⟨0, 1, 1⟩, by decide, by decide, by decide⟩
    exact absurd written (by decide)
  · intro whole
    have run : Run (multiThread DownloadState .through).session (OneSize 1) ⟨⟨none, none⟩, none⟩
        resumedMoves ((unsatisfiableHistory resumedMoves).get rfl) :=
      run_of_replay (by decide +kernel) (Option.some_get _).symm
    have written := whole _ _ run _ _ rfl rfl 0 (by decide)
    exact absurd written (by decide)

end Multi

end FastDownloader
