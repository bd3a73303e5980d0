/-
This file relates the checks and the split of worker ranges to exact covers of the file.
-/

import FastDownloader.Foundation.Tiling
import FastDownloader.Model.State

namespace FastDownloader

open Foundation

/-- The ranges cover the file exactly, and each position lies in its own range. -/
structure ExactCover (fileSize : Nat) (ranges : List WorkerRange) : Prop where
  tiles : Tiles WorkerRange.start WorkerRange.stop 0 fileSize ranges
  within : ∀ range ∈ ranges, range.start ≤ range.current ∧ range.current ≤ range.stop

/-- The accumulator of `validate` is the end of an exact cover. -/
theorem validateWorkers_ok_iff {index expected covered : Nat} {workers : List WorkerRange} :
    validateWorkers index expected workers = .ok covered ↔
      Tiles WorkerRange.start WorkerRange.stop expected covered workers ∧
        ∀ worker ∈ workers, worker.start ≤ worker.current ∧ worker.current ≤ worker.stop := by
  induction workers generalizing index expected with
  | nil => simp [validateWorkers, Tiles]
  | cons worker rest ih =>
      simp only [validateWorkers, Tiles, List.mem_cons, forall_eq_or_imp]
      split_ifs with misplaced reversed outside
      · simp [misplaced]
      · simp only [false_iff]
        omega
      · simp only [false_iff]
        omega
      · rw [ih]
        constructor
        · rintro ⟨tiles, within⟩
          exact ⟨⟨by omega, by omega, tiles⟩, by omega, within⟩
        · rintro ⟨⟨_, _, tiles⟩, _, within⟩
          exact ⟨tiles, within⟩

/-- An accepted state has the current version and an exact cover of its file. -/
theorem validate_ok_iff (state : DownloadState) :
    state.validate = .ok () ↔
      state.version = stateFileVersion ∧ state.workers ≠ [] ∧ ExactCover state.fileSize state.workers := by
  unfold DownloadState.validate
  split_ifs with version empty
  · simp [version]
  · simp [List.isEmpty_iff.mp empty]
  · have nonempty : state.workers ≠ [] := fun none => empty (by simp [none])
    split
    · rename_i error failed
      refine iff_of_false (by simp) ?_
      rintro ⟨_, _, cover⟩
      rw [validateWorkers_ok_iff.mpr ⟨cover.tiles, cover.within⟩] at failed
      cases failed
    · rename_i covered passed
      have found := validateWorkers_ok_iff.mp passed
      split_ifs with short
      · refine iff_of_false (by simp) ?_
        rintro ⟨_, _, cover⟩
        rw [validateWorkers_ok_iff.mpr ⟨cover.tiles, cover.within⟩] at passed
        exact short (Except.ok.inj passed).symm
      · obtain rfl := not_not.mp short
        exact iff_of_true rfl ⟨not_not.mp version, nonempty, found.1, found.2⟩

/-- A file loads when its text parses to a state that passes the check. -/
theorem load_ok_iff {Text : Type} [SerdeJson Text] (file : Option Text) (state : DownloadState) :
    load file = .ok state ↔
      ∃ text, file = some text ∧ SerdeJson.fromSlice text = .ok state ∧ state.validate = .ok () := by
  unfold load
  split
  · simp
  · rename_i text
    simp only [Option.some.injEq, exists_eq_left']
    split
    · rename_i failed
      simp [failed]
    · rename_i parsed read
      split
      · rename_i rejected
        simp only [reduceCtorEq, read, Except.ok.injEq, false_iff, not_and]
        rintro rfl accepted
        rw [accepted] at rejected
        cases rejected
      · rename_i accepted
        simp only [read, Except.ok.injEq]
        constructor
        · rintro rfl
          exact ⟨rfl, accepted⟩
        · exact fun same => same.1

/-- A saved state that passes the check loads again. -/
theorem load_toVec {Text : Type} [SerdeJson Text] {state : DownloadState} (valid : state.validate = .ok ()) :
    load (some (SerdeJson.toVec state : Text)) = .ok state :=
  (load_ok_iff _ _).mpr ⟨_, rfl, SerdeJson.fromSlice_toVec state, valid⟩

/-- The loop leaves the last range everything behind its start. -/
theorem splitFrom_tiles {fileSize chunk remaining pos : Nat} (more : 0 < remaining)
    (room : pos + remaining * chunk ≤ fileSize) :
    Tiles WorkerRange.start WorkerRange.stop pos fileSize (splitFrom fileSize chunk remaining pos) := by
  induction remaining generalizing pos with
  | zero => omega
  | succ remaining ih =>
      rw [Nat.succ_mul] at room
      by_cases last : remaining = 0
      · subst last
        simp only [splitFrom, Tiles, if_true, true_and, and_true]
        omega
      · simp only [splitFrom, Tiles, if_neg last]
        exact ⟨trivial, by omega, ih (by omega) (by omega)⟩

theorem splitFrom_current {fileSize chunk remaining pos : Nat} :
    ∀ range ∈ splitFrom fileSize chunk remaining pos, range.current = range.start := by
  induction remaining generalizing pos with
  | zero => simp [splitFrom]
  | succ remaining ih =>
      simp only [splitFrom, List.mem_cons, forall_eq_or_imp, true_and]
      exact ih

theorem effectiveThreads_pos (fileSize threadCount minChunk : Nat) :
    0 < effectiveThreads fileSize threadCount minChunk := by
  unfold effectiveThreads
  dsimp only
  split <;> omega

/-- A fresh split covers the file, and no byte counts as loaded. -/
theorem splitWorkers_cover {fileSize threadCount minChunk : Nat} {ranges : List WorkerRange}
    (split : splitWorkers fileSize threadCount minChunk = some ranges) :
    ExactCover fileSize ranges ∧ ∀ range ∈ ranges, range.current = range.start := by
  unfold splitWorkers at split
  split_ifs at split with positive
  obtain rfl := Option.some.inj split
  have threads := effectiveThreads_pos fileSize threadCount minChunk
  have room := Nat.mul_div_le fileSize (effectiveThreads fileSize threadCount minChunk)
  have fits : 0 + effectiveThreads fileSize threadCount minChunk *
      (fileSize / effectiveThreads fileSize threadCount minChunk) ≤ fileSize := by rwa [Nat.zero_add]
  have tiles := splitFrom_tiles threads fits
  refine ⟨⟨tiles, fun range member => ?_⟩, splitFrom_current⟩
  have ordered := (tiles.bounds range member).2.1
  rw [splitFrom_current range member]
  exact ⟨Nat.le_refl _, ordered⟩

theorem splitWorkers_ne_nil {fileSize threadCount minChunk : Nat} {ranges : List WorkerRange}
    (split : splitWorkers fileSize threadCount minChunk = some ranges) : ranges ≠ [] := by
  unfold splitWorkers at split
  split_ifs at split with positive
  obtain rfl := Option.some.inj split
  obtain ⟨threads, same⟩ := Nat.exists_eq_succ_of_ne_zero
    (Nat.ne_of_gt (effectiveThreads_pos fileSize threadCount minChunk))
  simp [same, splitFrom]

/-- The offset counts as loaded in these ranges. -/
def Named (ranges : List WorkerRange) (position : Nat) : Prop :=
  ∃ range ∈ ranges, range.start ≤ position ∧ position < range.current

/-- A fresh split names no offset. -/
theorem not_named_of_fresh {ranges : List WorkerRange}
    (fresh : ∀ range ∈ ranges, range.current = range.start) (position : Nat) : ¬ Named ranges position := by
  rintro ⟨range, member, lower, upper⟩
  have := fresh range member
  omega

theorem ExactCover.named_lt {fileSize : Nat} {ranges : List WorkerRange} (cover : ExactCover fileSize ranges)
    {position : Nat} (named : Named ranges position) : position < fileSize := by
  obtain ⟨range, member, lower, upper⟩ := named
  have inside := (cover.tiles.bounds range member).2.2
  have := (cover.within range member).2
  omega

end FastDownloader
