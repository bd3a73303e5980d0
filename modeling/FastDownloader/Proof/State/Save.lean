/-
This file proves that a save replaces the state file as a whole, wherever it fails or is killed.
-/

import FastDownloader.Model.MultiThread
import FastDownloader.Model.StateFile
import FastDownloader.Proof.State.Ranges

namespace FastDownloader

open Foundation

theorem tmpPathFor_ne (path : String) : tmpPathFor path ≠ path := by
  intro same
  have longer := congrArg String.length same
  rw [tmpPathFor, String.length_append] at longer
  exact absurd longer (by simp)

namespace Save

variable {Byte : Type} {path : String} {text held rest : List Byte} {before files after : Directory String Byte}
  {save next : Save Byte} {event : SaveEvent}

/-- The file, the background write and the rest make up the text, unless a write has failed. -/
def Owed (text held rest : List Byte) : TmpHandle Byte → Prop
  | .idle => held ++ rest = text
  | .busy bytes => held ++ bytes ++ rest = text
  | .failed => True
  | .closed => False

/-- Each control point fixes what the temporary file holds. -/
def Written (text : List Byte) (path : String) (files : Directory String Byte) (save : Save Byte) : Prop :=
  match save.pc with
  | .creating bytes => bytes = text ∧ save.handle = .closed
  | .writing rest => ∃ held, files (tmpPathFor path) = some held ∧ Owed text held rest save.handle
  | .flushing => ∃ held, files (tmpPathFor path) = some held ∧ Owed text held [] save.handle
  | .syncing => files (tmpPathFor path) = some text ∧ save.handle = .idle
  | .persisting => files (tmpPathFor path) = some text ∧ save.handle = .closed
  | .returned _ => save.handle = .closed

/-- The state file holds the new text once the save has returned without an error. Before that it is as it was. -/
structure Replacing (text : List Byte) (path : String) (before files : Directory String Byte) (save : Save Byte) :
    Prop where
  progress : Written text path files save
  kept : save.outcome ≠ some (.ok ()) → files path = before path
  replaced : save.outcome = some (.ok ()) → files path = some text
  others : ∀ name, name ≠ path → name ≠ tmpPathFor path → files name = before name

/-- Before the rename only the temporary file changes. -/
theorem Replacing.touch (replacing : Replacing text path before files save)
    (unended : save.outcome ≠ some (.ok ())) (open_ : next.outcome ≠ some (.ok ()))
    (same : ∀ name, name ≠ tmpPathFor path → after name = files name) (written : Written text path after next) :
    Replacing text path before after next where
  progress := written
  kept _ := (same path (tmpPathFor_ne path).symm).trans (replacing.kept unended)
  replaced ended := absurd ended open_
  others name notPath notTmp := (same name notTmp).trans (replacing.others name notPath notTmp)

/-- A background write moves bytes to the temporary file. -/
theorem Written.land {bytes : List Byte} (written : Written text path files save) (held : save.handle = .busy bytes)
    (kept : List Byte) (handle : TmpHandle Byte)
    (settled : ∀ before rest, Owed text before rest (.busy bytes) → Owed text (before ++ kept) rest handle) :
    save.outcome ≠ some (.ok ()) ∧
      Written text path (files.append (tmpPathFor path) kept) { save with handle := handle } := by
  obtain ⟨pc, carried⟩ := save
  dsimp only at held
  subst held
  cases pc with
  | creating | syncing | persisting => cases written.2
  | returned => cases written
  | writing rest =>
      obtain ⟨before, present, owed⟩ := written
      exact ⟨nofun, before ++ kept, by simp [present], settled before rest owed⟩
  | flushing =>
      obtain ⟨before, present, owed⟩ := written
      exact ⟨nofun, before ++ kept, by simp [present], settled before [] owed⟩

/-- Each step of the save keeps the state file whole. -/
theorem Replacing.step (replacing : Replacing text path before files save)
    (taken : Save.step path (files, save) event = some (after, next)) : Replacing text path before after next := by
  have written := replacing.progress
  have appended : ∀ kept name, name ≠ tmpPathFor path → files.append (tmpPathFor path) kept name = files name :=
    fun kept name apart => Directory.append_other apart
  unfold Save.step at taken
  dsimp only at taken
  split at taken
  · rename_i bytes held
    cases taken
    obtain ⟨unended, moved⟩ := written.land held bytes .idle fun _ _ owed => owed
    exact replacing.touch unended unended (appended bytes) moved
  · rename_i bytes kept held
    cases taken
    obtain ⟨unended, moved⟩ := written.land held (bytes.take kept) .failed fun _ _ _ => trivial
    exact replacing.touch unended unended (appended _) moved
  · rename_i bytes ok at_pc
    simp only [Written, at_pc] at written
    have unended : save.outcome ≠ some (.ok ()) := by simp [outcome, at_pc]
    split_ifs at taken with created
    · cases taken
      refine replacing.touch unended nofun (fun name apart => Directory.create_other apart) ⟨[], by simp, ?_⟩
      exact written.1
    · cases taken
      exact replacing.touch unended nofun (fun _ _ => rfl) rfl
  · rename_i rest size at_pc held
    split_ifs at taken with empty
    cases taken
    simp only [Written, at_pc, held] at written
    obtain ⟨before, present, owed⟩ := written
    refine replacing.touch (by simp [outcome, at_pc]) nofun (fun _ _ => rfl) ⟨before, present, ?_⟩
    simp only [Owed] at owed ⊢
    rw [List.append_assoc, List.take_append_drop, owed]
  · rename_i rest at_pc held
    split_ifs at taken with empty
    cases taken
    exact replacing.touch (by simp [outcome, at_pc]) nofun (fun _ _ => rfl) rfl
  · rename_i rest at_pc
    split_ifs at taken with empty
    cases taken
    simp only [Written, at_pc] at written
    refine replacing.touch (by simp [outcome, at_pc]) nofun (fun _ _ => rfl) ?_
    rw [List.isEmpty_iff.mp empty] at written
    exact written
  · rename_i at_pc held
    cases taken
    simp only [Written, at_pc, held] at written
    obtain ⟨before, present, owed⟩ := written
    refine replacing.touch (by simp [outcome, at_pc]) nofun (fun _ _ => rfl) ⟨?_, rfl⟩
    rw [present, ← owed, List.append_nil]
  · rename_i at_pc held
    cases taken
    exact replacing.touch (by simp [outcome, at_pc]) nofun (fun _ _ => rfl) rfl
  · rename_i at_pc
    cases taken
    simp only [Written, at_pc] at written
    exact replacing.touch (by simp [outcome, at_pc]) nofun (fun _ _ => rfl) ⟨written.1, rfl⟩
  · rename_i ok at_pc
    simp only [Written, at_pc] at written
    split_ifs at taken with moved
    · cases taken
      exact ⟨rfl, fun unended => absurd rfl unended, fun _ => Directory.rename_target.trans written.1,
        fun name notPath notTmp => (Directory.rename_other notPath notTmp).trans
          (replacing.others name notPath notTmp)⟩
    · cases taken
      exact replacing.touch (by simp [outcome, at_pc]) nofun (fun _ _ => rfl) rfl
  · cases taken

/-- The state file is as it was, or it is the new one. -/
theorem Replacing.either (replacing : Replacing text path before files save) :
    files path = before path ∨ files path = some text := by
  by_cases ended : save.outcome = some (.ok ())
  · exact Or.inr (replacing.replaced ended)
  · exact Or.inl (replacing.kept ended)

variable [SerdeJson (List Byte)] {state : DownloadState} {guard : Directory String Byte × Save Byte → SaveEvent → Prop}

theorem start_replacing (path : String) (files : Directory String Byte) (state : DownloadState) :
    Replacing (SerdeJson.toVec state) path files files (start state) :=
  ⟨⟨rfl, rfl⟩, fun _ => rfl, nofun, fun _ _ _ => rfl⟩

theorem run_replacing {events : List SaveEvent}
    (run : Run (Save.step path) guard (before, start state) events (files, save)) :
    Replacing (SerdeJson.toVec state) path before files save :=
  run.invariant (fun reached => Replacing (SerdeJson.toVec state) path before reached.1 reached.2)
    (fun _ _ _ replacing _ taken => replacing.step taken) (start_replacing path before state)

/-- A save that has returned did to the state file what the state task takes it for. -/
theorem save_refines {events : List SaveEvent} {result : Except Error Unit} {disk : Disk (List Byte)}
    (run : Run (Save.step path) guard (before, start state) events (files, save))
    (returned : save.outcome = some result) (same : disk.dlstate = before path) :
    { disk with dlstate := files path } =
      Multi.applySaverEffect disk (if result.isOk then .save state else .none) := by
  have replacing := run_replacing run
  cases result with
  | ok =>
      rw [replacing.replaced returned]
      rfl
  | error error =>
      have unended : save.outcome ≠ some (.ok ()) := by simp [returned]
      rw [replacing.kept unended, ← same]
      rfl

/-- The saved states pass their check. -/
def Saves (jobs : DownloadState → Prop) (_session : Session (Directory String Byte) (Save Byte) DownloadState) :
    Move DownloadState SaveEvent → Prop
  | .start state => jobs state ∧ state.validate = .ok ()
  | _ => True

instance (jobs : DownloadState → Prop) [DecidablePred jobs]
    (session : Session (Directory String Byte) (Save Byte) DownloadState) : ∀ move, Decidable (Saves jobs session move)
  | .start state => inferInstanceAs (Decidable (jobs state ∧ state.validate = .ok ()))
  | .step _ | .finish | .kill => .isTrue trivial

/-- The state file is that of the beginning, or it is one of the saved states. -/
def Whole (jobs : DownloadState → Prop) (path : String) (first files : Directory String Byte) : Prop :=
  files path = first path ∨ ∃ state, jobs state ∧ state.validate = .ok () ∧ files path = some (SerdeJson.toVec state)

/-- Saves that fail or are killed at any step leave the state file whole. -/
theorem history_whole {jobs : DownloadState → Prop} {moves : List (Move DownloadState SaveEvent)}
    {last : Session (Directory String Byte) (Save Byte) DownloadState}
    (run : Run (saving path).session (Saves jobs) ⟨before, none⟩ moves last) : Whole jobs path before last.store := by
  have ended : ∀ state (store reached : Directory String Byte) (process : Save Byte), jobs state →
      state.validate = .ok () → Whole jobs path before store →
      Replacing (SerdeJson.toVec state) path store reached process → Whole jobs path before reached := by
    intro state store reached process asked valid whole replacing
    rcases replacing.either with same | new
    · unfold Whole
      rw [same]
      exact whole
    · exact Or.inr ⟨state, asked, valid, new⟩
  have keeps : (saving path).Keeps (Saves jobs) (Whole jobs path before)
      (fun state reached process => jobs state ∧ state.validate = .ok () ∧ ∃ store, Whole jobs path before store ∧
        Replacing (SerdeJson.toVec state) path store reached process) := by
    refine ⟨?_, ?_, ?_, ?_⟩
    · exact fun store state whole admitted =>
        ⟨admitted.1, admitted.2, store, whole, start_replacing path store state⟩
    · rintro state reached process event next ⟨asked, valid, store, whole, replacing⟩ _ taken
      exact ⟨asked, valid, store, whole, replacing.step taken⟩
    · rintro state reached process result ⟨asked, valid, store, whole, replacing⟩ _ _
      exact ended state store reached process asked valid whole replacing
    · rintro state reached process ⟨asked, valid, store, whole, replacing⟩ _
      exact ended state store reached process asked valid whole replacing
  have held := keeps.invariant run (Or.inl rfl)
  obtain ⟨reached, active⟩ := last
  cases active with
  | none => exact held
  | some process =>
      obtain ⟨asked, valid, store, whole, replacing⟩ := held
      exact ended _ store reached _ asked valid whole replacing

/-- After any saves with kills in between, a save leaves the state that loaded before it or the new one, at every
moment and after every failure. A save that returns without an error leaves the new one. -/
theorem save_atomic {jobs : DownloadState → Prop} {first before last : Directory String Byte}
    {moves : List (Move DownloadState SaveEvent)} {events : List SaveEvent}
    (history : Run (saving path).session (Saves jobs) ⟨first, none⟩ moves ⟨before, none⟩)
    (valid : state.validate = .ok ())
    (run : Run ((saving path).step state) (fun _ _ => True) (before, (saving path).start state) events (last, save)) :
    (load (before path) = load (first path) ∨ ∃ earlier, jobs earlier ∧ load (before path) = .ok earlier) ∧
      (load (last path) = load (before path) ∨ load (last path) = .ok state) ∧
      ((saving path).outcome save = some (.ok ()) → load (last path) = .ok state) ∧
      ((first path = none ∨ ∃ earlier, load (first path) = .ok earlier) →
        last path = none ∨ ∃ saved, load (last path) = .ok saved) := by
  have replacing : Replacing (SerdeJson.toVec state) path before last save := run_replacing run
  have whole : Whole jobs path first before := history_whole history
  have after : load (last path) = load (before path) ∨ load (last path) = .ok state := by
    rcases replacing.either with same | new
    · exact Or.inl (congrArg load same)
    · exact Or.inr (new ▸ load_toVec valid)
  refine ⟨?_, after, fun ended => replacing.replaced ended ▸ load_toVec valid, fun loadable => ?_⟩
  · rcases whole with same | ⟨earlier, asked, accepted, saved⟩
    · exact Or.inl (congrArg load same)
    · exact Or.inr ⟨earlier, asked, saved ▸ load_toVec accepted⟩
  · rcases replacing.either with same | new
    · rw [same]
      rcases whole with kept | ⟨earlier, _, accepted, saved⟩
      · rwa [kept]
      · exact Or.inr ⟨earlier, saved ▸ load_toVec accepted⟩
    · exact Or.inr ⟨state, new ▸ load_toVec valid⟩

/-- A text has one piece with the state and one that closes it. -/
inductive Piece where
  | opened (state : DownloadState)
  | brace

/-- A text without its last piece does not parse. -/
instance : SerdeJson (List Piece) where
  toVec state := [.opened state, .brace]
  fromSlice
    | [.opened state, .brace] => .ok state
    | _ => .error "EOF while parsing an object"
  fromSlice_toVec _ := rfl

def oneWorker (current : Nat) : DownloadState := .new "u" 2 [⟨0, current, 2⟩]

/-- The first save is done, and the second one is killed within its second write. -/
def killedMoves : List (Move DownloadState SaveEvent) :=
  .start (oneWorker 0) :: [.created true, .handed 1, .land, .handed 1, .land, .wrote, .flushed true, .synced true,
    .renamed true].map .step ++ .finish :: .start (oneWorker 1) ::
      [.created true, .handed 1, .land, .handed 1, .lose 0].map .step ++ [.kill]

def noFiles : Directory String Piece := fun _ => none

def killedSession : Option (Session (Directory String Piece) (Save Piece) DownloadState) :=
  replay (saving "f").session ⟨noFiles, none⟩ killedMoves

/-- The third save fails at its rename. -/
def failedEvents : List SaveEvent :=
  [.created true, .handed 2, .land, .wrote, .flushed true, .synced false, .renamed false]

def failedSave : Option (Directory String Piece × Save Piece) :=
  replay ((saving "f").step (oneWorker 2)) ((killedSession.get rfl).store, (saving "f").start (oneWorker 2)) failedEvents

theorem save_atomic_failed : load ((failedSave.get rfl).1 "f") = .ok (oneWorker 0) := by
  have history : Run (saving "f").session (Saves fun state => state.url = "u") ⟨noFiles, none⟩ killedMoves
      (killedSession.get rfl) :=
    run_of_replay (by decide +kernel) (Option.some_get _).symm
  have run : Run ((saving "f").step (oneWorker 2)) (fun _ _ => True)
      ((killedSession.get rfl).store, (saving "f").start (oneWorker 2)) failedEvents (failedSave.get rfl) :=
    run_of_replay (by decide +kernel) (Option.some_get _).symm
  have kept := (save_atomic history (by decide) run).2.1
  have unsaved : load ((failedSave.get rfl).1 "f") ≠ .ok (oneWorker 2) := by decide +kernel
  exact (kept.resolve_right unsaved).trans rfl

end Save

end FastDownloader
