/-
This file proves that the saved positions of a resource never move back, over all histories of calls.
-/

import FastDownloader.Proof.MultiThread.Restart

namespace FastDownloader

open Foundation

/-- A later checkpoint keeps the range and does not move its position back. -/
structure Until (earlier later : WorkerRange) : Prop where
  start : earlier.start = later.start
  stop : earlier.stop = later.stop
  le_current : earlier.current ≤ later.current

theorem Until.refl (range : WorkerRange) : Until range range := ⟨rfl, rfl, Nat.le_refl _⟩

theorem Until.trans {first second third : WorkerRange} (start : Until first second) (rest : Until second third) :
    Until first third :=
  ⟨start.start.trans rest.start, start.stop.trans rest.stop, start.le_current.trans rest.le_current⟩

/-- The state task holds no position below the saved ones. -/
def Saver.Above (saved : List WorkerRange) (saver : Saver) : Prop :=
  match saver.pc with
  | .loading loaded => List.Forall₂ (fun range value => range.current ≤ value) (saved.take loaded.length) loaded
  | .syncing state | .saving state => List.Forall₂ Until saved state.workers
  | _ => True

/-- The positions of a checkpoint are paired with the ranges of the workers. -/
theorem until_snapshot {job : Job} {saved : List WorkerRange} {workers : List Worker} {loaded : List Nat}
    (behind : List.Forall₂ Behind saved workers)
    (above : List.Forall₂ (fun range value => range.current ≤ value) saved loaded) :
    List.Forall₂ Until saved (snapshot job workers loaded).workers := by
  simp only [snapshot, DownloadState.withResourceId, DownloadState.new]
  induction behind generalizing loaded with
  | nil => exact .nil
  | cons here _ ih =>
      cases above with
      | cons reached rest => exact .cons ⟨here.start, here.stop, reached⟩ (ih rest)

/-- A step of the state task reads no position below the saved ones. -/
theorem SaverMove.above {job : Job} {workers : List Worker} {stopping : Bool} {saver next : Saver}
    {event : SaverEvent} {effect : SaverEffect} {saved : List WorkerRange}
    (move : SaverMove job workers stopping saver event next effect) (above : saver.Above saved)
    (behind : List.Forall₂ Behind saved workers)
    (bounded : ∀ worker ∈ workers, worker.current ≤ worker.stop) : next.Above saved := by
  unfold Saver.Above at above
  cases move with
  | broken | opened => trivial
  | tick | halt => simp [Saver.Above]
  | load loaded worker at_pc present =>
      simp only [at_pc] at above
      obtain ⟨range, found, here⟩ := forall₂_getElem? behind.flip present
      have inside := bounded worker (List.mem_of_getElem? present)
      have reached := here.le_current
      simp only [Saver.Above, List.length_append, List.length_singleton]
      rw [List.take_add_one, found]
      exact List.rel_append above (.cons (Nat.le_min.mpr ⟨reached, reached.trans inside⟩) .nil)
  | take loaded at_pc complete pc chosen =>
      simp only [at_pc] at above
      have long := List.getElem?_eq_none_iff.mp complete
      rw [List.take_of_length_le (behind.length_eq ▸ long)] at above
      have taken : List.Forall₂ Until saved (snapshot job workers loaded).workers := until_snapshot behind above
      subst chosen
      unfold Saver.Above
      split_ifs <;> exact taken
  | synced ok state at_pc =>
      simp only [at_pc] at above
      exact above
  | saved ok state at_pc =>
      unfold Saver.Above
      dsimp only
      split_ifs <;> trivial

/-- All calls see one resource and can read its state file. They may use any number of threads. -/
def OneResource (info : FileInfo) {Text : Type} (_session : Session (Disk Text) Multi Job) : Move Job Act → Prop
  | .start job => job.info = info
  | .step (.main (.load readable)) => readable = true
  | _ => True

instance (info : FileInfo) {Text : Type} (session : Session (Disk Text) Multi Job) (move : Move Job Act) :
    Decidable (OneResource info session move) := by
  induction move using Move.casesOn with
  | start job => exact inferInstanceAs (Decidable (job.info = info))
  | step act =>
      induction act using Act.casesOn with
      | main event =>
          induction event using MainEvent.casesOn with
          | load readable => exact inferInstanceAs (Decidable (readable = true))
          | _ => exact .isTrue trivial
      | _ => exact .isTrue trivial
  | finish | kill => exact .isTrue trivial

namespace Multi

variable {Text : Type} [SerdeJson Text] {right : Nat → UInt8 → Prop} {io : FileIo} {job : Job}
  {disk after : Disk Text} {multi next : Multi} {act : Act}

/-- The workers and the state task are not behind these saved positions. -/
structure Layered (saved : List WorkerRange) (multi : Multi) : Prop where
  behind : List.Forall₂ Behind saved multi.workers
  held : multi.saver.Above saved

/-- The call is not behind its own state file. -/
def Ahead (job : Job) (disk : Disk Text) (multi : Multi) : Prop :=
  ∀ state, load disk.dlstate = .ok state → resumable job.info job.fileSize state = true →
    Layered state.workers multi

/-- A call begins where its state file left off. -/
theorem begin_ahead {ranges : List WorkerRange} (fresh : multi.saver = Saver.init)
    (chosen : chooseRanges job job.fileSize disk.dlstate = some ranges) : Ahead job disk (multi.begin ranges) := by
  intro state loaded accepted
  have same : state.workers = ranges := by
    unfold chooseRanges at chosen
    rw [loaded] at chosen
    dsimp only at chosen
    rw [if_pos accepted] at chosen
    exact Option.some.inj chosen
  subst same
  have cover := (chooseRanges_cover chosen).1
  refine ⟨?_, by simp [Saver.Above, Multi.begin, fresh, Saver.init]⟩
  exact List.forall₂_map_right_iff.mpr (List.forall₂_same.mpr fun range member =>
    ⟨rfl, rfl, (cover.within range member).1, Nat.le_refl _⟩)

/-- Only a deletion takes a state file away. -/
theorem Change.deletes (change : Change right io job disk multi act after next) (gone : after.dlstate = none) :
    disk.dlstate = none ∨ act = .main (.deleted true) := by
  cases change with
  | cancelled | landed | lost | orphanLanded | orphanLost => exact Or.inl gone
  | worker index event worker moved effect => cases effect <;> exact Or.inl gone
  | saver event stopping moved effect =>
      cases effect with
      | none | sync => exact Or.inl gone
      | save => cases gone
  | main event _ phase move =>
      cases move with
      | created | notCreated | resized | notResized | join | conclude | reopened | notReopened => exact Or.inl gone
      | settled ok | finalSync ok => cases ok <;> exact Or.inl gone
      | discarded ok | deleted ok =>
          cases ok with
          | false => exact Or.inl gone
          | true => exact Or.inr rfl

/-- A save leaves the state task with nothing. -/
theorem Change.saves (change : Change right io job disk multi act after next)
    (other : after.dlstate ≠ disk.dlstate) (kept : after.dlstate ≠ none) (saved : List WorkerRange) :
    next.saver.Above saved := by
  cases change with
  | cancelled | landed | lost | orphanLanded | orphanLost => exact absurd rfl other
  | worker index event worker moved effect => cases effect <;> exact absurd rfl other
  | main event _ phase move =>
      cases move with
      | created | notCreated | resized | notResized | join | conclude | reopened | notReopened => exact absurd rfl other
      | settled ok | finalSync ok => cases ok <;> exact absurd rfl other
      | discarded ok | deleted ok =>
          cases ok with
          | false => exact absurd rfl other
          | true => exact absurd rfl kept
  | saver event stopping moved effect during move =>
      cases move with
      | broken | opened | tick | halt | load | take => exact absurd rfl other
      | synced ok => cases ok <;> exact absurd rfl other
      | saved ok =>
          unfold Saver.Above
          dsimp only
          split_ifs <;> trivial

/-- Saved positions that the step leaves alone stay below the workers and the state task. -/
theorem Layered.change {saved : List WorkerRange} (layered : Layered saved multi)
    (change : Change right io job disk multi act after next) (controlled : Controlled right job multi) :
    Layered saved next := by
  have grown : List.Forall₂ Behind saved next.workers :=
    forall₂_trans (fun _ _ _ => Behind.grow) layered.behind (change.grows controlled)
  refine ⟨grown, ?_⟩
  cases change with
  | saver event stopping moved effect during move =>
      exact move.above layered.held layered.behind fun worker member =>
        (controlled.bounded worker member).2
  | worker index event worker moved effect => cases effect <;> exact layered.held
  | cancelled | main | landed | lost | orphanLanded | orphanLost => exact layered.held

/-- Each step keeps the call ahead of its state file. -/
theorem Ahead.change (ahead : Ahead job disk multi) (change : Change right io job disk multi act after next)
    (controlled : Controlled right job multi) : Ahead job after next := by
  intro state loaded accepted
  by_cases same : after.dlstate = disk.dlstate
  · exact (ahead state (same ▸ loaded) accepted).change change controlled
  · rcases change.dlstate controlled with kept | gone | ⟨taken, -, snapshot, saved⟩
    · exact absurd kept same
    · rw [gone] at loaded
      cases loaded
    · have present : after.dlstate ≠ none := by
        rw [saved]
        rintro ⟨⟩
      rw [saved, controlled.load_taken snapshot] at loaded
      obtain rfl := Except.ok.inj loaded
      exact ⟨(snapshot.grow (change.grows controlled)).behind, change.saves same present _⟩

/-- A step deletes the state file or keeps the positions that it names. -/
theorem Ahead.until (ahead : Ahead job disk multi) (change : Change right io job disk multi act after next)
    (controlled : Controlled right job multi) {earlier : DownloadState} (loaded : load disk.dlstate = .ok earlier)
    (accepted : resumable job.info job.fileSize earlier = true) :
    act = .main (.deleted true) ∨ ∃ later, load after.dlstate = .ok later ∧
      resumable job.info job.fileSize later = true ∧ List.Forall₂ Until earlier.workers later.workers := by
  rcases change.dlstate controlled with kept | gone | ⟨taken, at_pc, snapshot, saved⟩
  · exact Or.inr ⟨earlier, kept ▸ loaded, accepted, List.forall₂_same.mpr fun range _ => .refl range⟩
  · rcases change.deletes gone with absent | deleted
    · rw [absent] at loaded
      cases loaded
    · exact Or.inl deleted
  · have held := (ahead earlier loaded accepted).held
    simp only [Saver.Above, at_pc] at held
    refine Or.inr ⟨taken, ?_, snapshot.resumable controlled.nonempty, held⟩
    rw [saved, controlled.load_taken snapshot]

/-- At every moment a call has not begun or is ahead of its state file. -/
def Standing (info : FileInfo) (job : Job) (disk : Disk Text) (multi : Multi) : Prop :=
  job.info = info ∧ (Unbegun job multi ∨ (Controlled (fun _ _ => True) job multi ∧ Ahead job disk multi))

/-- Calls of one resource that read their state file stay ahead of it. -/
theorem keeps_standing (io : FileIo) (info : FileInfo) :
    (multiThread Text io).Keeps (OneResource info) (fun _ => True) (Standing info) where
  start _ job _ admitted := ⟨admitted, Or.inl (start_unbegun job)⟩
  step := by
    rintro job disk multi act next ⟨same, unbegun | ⟨controlled, ahead⟩⟩ admitted taken
    · rcases unbegun.step_cases taken with ⟨_, still⟩ | ⟨readable, ranges, rfl, chosen, rfl⟩
      · exact ⟨same, Or.inl still⟩
      · obtain rfl : readable = true := admitted
        rw [if_pos rfl] at chosen
        exact ⟨same, Or.inr ⟨unbegun.controlled chosen, begin_ahead unbegun.saver chosen⟩⟩
    · have change := controlled.step_change (answered_any _ _) taken
      exact ⟨same, Or.inr ⟨controlled.change change, ahead.change change controlled⟩⟩
  finish _ _ _ _ _ _ _ := trivial
  kill _ _ _ _ _ := trivial

/-- What a state file keeps from an earlier one. -/
def KeptSince (info : FileInfo) (earlier : DownloadState) (disk : Disk Text) : Prop :=
  ∃ later, load disk.dlstate = .ok later ∧ resumable info (info.size.getD 0) later = true ∧
    List.Forall₂ Until earlier.workers later.workers

/-- One move of a session deletes the state file or keeps what it has. -/
theorem session_kept {info : FileInfo} {before after : Session (Disk Text) Multi Job} {move : Move Job Act}
    {earlier : DownloadState} (held : before.Holds (fun _ => True) (Standing info))
    (kept : KeptSince info earlier before.store)
    (taken : (multiThread Text io).session before move = some after) :
    move = .step (.main (.deleted true)) ∨ KeptSince info earlier after.store := by
  obtain ⟨disk, active⟩ := before
  obtain ⟨state, loaded, accepted, since⟩ := kept
  rcases active with _ | ⟨job, multi⟩
  · cases move with
    | start job =>
        obtain rfl := Option.some.inj taken
        exact Or.inr ⟨state, loaded, accepted, since⟩
    | step | finish | kill => cases taken
  · obtain ⟨rfl, standing⟩ := held
    cases move with
    | start job => cases taken
    | kill =>
        obtain rfl := Option.some.inj taken
        exact Or.inr ⟨state, loaded, accepted, since⟩
    | finish =>
        simp only [Program.session] at taken
        split at taken
        · obtain rfl := Option.some.inj taken
          exact Or.inr ⟨state, loaded, accepted, since⟩
        · cases taken
    | step act =>
        obtain ⟨next, stepped, rfl⟩ := Option.map_eq_some_iff.mp taken
        rcases standing with unbegun | ⟨controlled, ahead⟩
        · have same : next.1 = disk := by
            rcases unbegun.step_cases stepped with ⟨same, _⟩ | ⟨_, _, _, _, rfl⟩
            · exact same
            · rfl
          exact Or.inr ⟨state, same ▸ loaded, accepted, since⟩
        · have change := controlled.step_change (answered_any _ _) stepped
          rcases ahead.until change controlled loaded accepted with rfl | ⟨later, again, still, grown⟩
          · exact Or.inl rfl
          · exact Or.inr ⟨later, again, still, forall₂_trans (fun _ _ _ => Until.trans) since grown⟩

/-- Saved positions never move back. Over all histories of calls on one resource, with any thread counts, answers and
interleavings, and with a kill at any moment, a state file that can be resumed from stays one and its positions only
grow, until it is deleted at the end of a call. -/
theorem checkpoints_kept {info : FileInfo} {disk : Disk Text} {before moves : List (Move Job Act)}
    {middle last : Session (Disk Text) Multi Job}
    (start : Run (multiThread Text io).session (OneResource info) ⟨disk, none⟩ before middle)
    (rest : Run (multiThread Text io).session (OneResource info) middle moves last) {earlier : DownloadState}
    (loaded : load middle.store.dlstate = .ok earlier)
    (accepted : resumable info (info.size.getD 0) earlier = true) :
    .step (.main (.deleted true)) ∈ moves ∨ ∃ later, load last.store.dlstate = .ok later ∧
      resumable info (info.size.getD 0) later = true ∧ List.Forall₂ Until earlier.workers later.workers := by
  have keeps : (multiThread Text io).Keeps (OneResource info) (fun _ => True) (Standing info) := keeps_standing io info
  have begun : KeptSince info earlier middle.store :=
    ⟨earlier, loaded, accepted, List.forall₂_same.mpr fun range _ => .refl range⟩
  refine (rest.history (fun past session => session.Holds (fun _ => True) (Standing info) ∧
    (.step (.main (.deleted true)) ∈ past ∨ KeptSince info earlier session.store)) ?_
    ⟨keeps.invariant start trivial, Or.inr begun⟩).2
  rintro past session move next ⟨held, kept⟩ admitted taken
  refine ⟨keeps.invariant (.cons admitted taken (.nil next)) held, ?_⟩
  rcases kept with deleted | kept
  · exact Or.inl (List.mem_append_left _ deleted)
  · rcases session_kept held kept taken with rfl | still
    · exact Or.inl (List.mem_append_right _ List.mem_cons_self)
    · exact Or.inr still

/-- A resource of three bytes. -/
def tripleInfo : FileInfo := ⟨"u", some 3, fits_three, true, some "a", none, none⟩

/-- A call gets one byte more, saves its positions and is killed. -/
def resumableMoves (threads : Nat) (body : List UInt8) : List (Move Job Act) :=
  .start ⟨tripleInfo, threads, {}⟩ :: [.main (.load true), .main (.created true), .main (.resized true),
    .main (.synced true), .worker 0 .check, .worker 0 (.reply (some ⟨206, none, none, body⟩)), .worker 0 (.opened true),
    .worker 0 (.chunk 1), .worker 0 .wrote, .worker 0 .store, .worker 0 .count, .saver (.opened true), .saver .tick,
    .saver .load, .saver .load, .saver (.saved true)].map .step ++ [.kill]

def savedOnce : Option (Session (Disk DownloadState) Multi Job) :=
  replay (multiThread DownloadState .through).session ⟨⟨none, none⟩, none⟩ (resumableMoves 1 [1, 2, 3])

def savedTwice : Option (Session (Disk DownloadState) Multi Job) :=
  replay (multiThread DownloadState .through).session (savedOnce.get rfl) (resumableMoves 4 [2, 3])

theorem checkpoints_kept_twice : ∃ earlier later, load (savedOnce.get rfl).store.dlstate = .ok earlier ∧
    earlier.workers = [⟨0, 1, 3⟩] ∧ load (savedTwice.get rfl).store.dlstate = .ok later ∧
      List.Forall₂ Until earlier.workers later.workers := by
  have start : Run (multiThread DownloadState .through).session (OneResource tripleInfo) ⟨⟨none, none⟩, none⟩
      (resumableMoves 1 [1, 2, 3]) (savedOnce.get rfl) :=
    run_of_replay (by decide +kernel) (Option.some_get _).symm
  have rest : Run (multiThread DownloadState .through).session (OneResource tripleInfo) (savedOnce.get rfl)
      (resumableMoves 4 [2, 3]) (savedTwice.get rfl) :=
    run_of_replay (by decide +kernel) (Option.some_get _).symm
  rcases checkpoints_kept start rest rfl rfl with deleted | ⟨later, loaded, _, grown⟩
  · simp [resumableMoves] at deleted
  · exact ⟨_, later, rfl, rfl, loaded, grown⟩

end Multi

end FastDownloader
