/-
This file proves that `validate` accepts exactly the exact covers, and what the arithmetic of a resume relies on.
-/

import FastDownloader.Foundation.Slots
import FastDownloader.Model.MultiThread
import FastDownloader.Model.Overflow
import FastDownloader.Proof.State.Ranges

namespace FastDownloader

open Foundation

namespace ExactCover

variable {fileSize : Nat} {ranges : List WorkerRange}

/-- Each offset lies in exactly one range. -/
theorem existsUnique (cover : ExactCover fileSize ranges) {offset : Nat} (inside : offset < fileSize) :
    ∃! index : Nat, ∃ range, ranges[index]? = some range ∧ range.start ≤ offset ∧ offset < range.stop := by
  obtain ⟨index, range, present, bounds⟩ := cover.tiles.exists_tile (Nat.zero_le offset) inside
  refine ⟨index, ⟨range, present, bounds⟩, ?_⟩
  rintro other ⟨another, found, reached⟩
  exact cover.tiles.unique found present reached bounds

/-- No position lies before the start of its range. -/
theorem mapM_checkedSub (cover : ExactCover fileSize ranges) :
    ranges.mapM (fun range => checkedSub range.current range.start) =
      some (ranges.map fun range => range.current - range.start) := by
  have ordered := fun range member => (cover.within range member).1
  clear cover
  induction ranges with
  | nil => rfl
  | cons range rest ih =>
      rw [List.mapM_cons, checkedSub_of_le (ordered range List.mem_cons_self),
        ih fun other member => ordered other (List.mem_cons_of_mem range member)]
      rfl

/-- The loaded bytes are bytes of the file. -/
theorem sum_le (cover : ExactCover fileSize ranges) :
    (ranges.map fun range => range.current - range.start).sum ≤ fileSize := by
  have lengths := cover.tiles.sum
  rw [Nat.add_zero] at lengths
  rw [← lengths]
  refine List.sum_le_sum fun range member => ?_
  exact Nat.sub_le_sub_right (cover.within range member).2 range.start

/-- All bytes are loaded exactly when every range has reached its end. -/
theorem sum_eq_iff (cover : ExactCover fileSize ranges) :
    (ranges.map fun range => range.current - range.start).sum = fileSize ↔
      ∀ range ∈ ranges, range.isDone = true := by
  have lengths := cover.tiles.sum
  rw [Nat.add_zero] at lengths
  constructor
  · intro full range member
    have bounded : ∀ other ∈ ranges, other.current - other.start ≤ other.stop - other.start :=
      fun other found => Nat.sub_le_sub_right (cover.within other found).2 other.start
    have same := eq_of_sum_eq bounded (full.trans lengths.symm) range member
    have within := cover.within range member
    simp only [WorkerRange.isDone, ge_iff_le, decide_eq_true_eq]
    omega
  · intro done
    rw [← lengths]
    refine congrArg List.sum (List.map_congr_left fun range member => ?_)
    have reached := done range member
    have within := cover.within range member
    simp only [WorkerRange.isDone, ge_iff_le, decide_eq_true_eq] at reached
    omega

/-- The sum of the loaded bytes neither underflows nor wraps. -/
theorem initialDownloaded_eq (cover : ExactCover fileSize ranges) (fits : fileSize < wordLimit) :
    initialDownloaded ranges = some (ranges.map fun range => range.current - range.start).sum := by
  rw [initialDownloaded, cover.mapM_checkedSub, Option.bind_some]
  exact checkedSum_of_lt (Nat.lt_of_le_of_lt cover.sum_le fits)

end ExactCover

/-- The check accepts exactly the states whose intervals follow each other from zero to the file size. Each offset then
has one worker, and the sum of the loaded bytes is exact. -/
theorem validate_exact (state : DownloadState) (fits : state.fileSize < wordLimit) :
    (state.validate = .ok () ↔
      state.version = stateFileVersion ∧ state.workers ≠ [] ∧
        state.workers.head?.map WorkerRange.start = some 0 ∧
        state.workers.IsChain (fun left right => right.start = left.stop) ∧
        state.workers.getLast?.map WorkerRange.stop = some state.fileSize ∧
        ∀ worker ∈ state.workers, worker.start ≤ worker.current ∧ worker.current ≤ worker.stop) ∧
      (state.validate = .ok () →
        (∀ offset, offset < state.fileSize → ∃! index : Nat, ∃ worker, state.workers[index]? = some worker ∧
          worker.start ≤ offset ∧ offset < worker.stop) ∧
        ∃ total, state.totalDownloaded = some total ∧ initialDownloaded state.workers = some total ∧
          (∀ multi : Multi, (multi.begin state.workers).downloaded = total) ∧ total ≤ state.fileSize ∧
          (total = state.fileSize ↔ ∀ worker ∈ state.workers, worker.isDone = true)) := by
  rw [validate_ok_iff]
  constructor
  · refine and_congr_right fun _ => and_congr_right fun nonempty => ?_
    constructor
    · rintro ⟨tiles, within⟩
      obtain ⟨first, chain, last, -⟩ := (tiles_iff_isChain nonempty).mp tiles
      exact ⟨first, chain, last, within⟩
    · rintro ⟨first, chain, last, within⟩
      have ordered : ∀ worker ∈ state.workers, worker.start ≤ worker.stop :=
        fun worker member => (within worker member).1.trans (within worker member).2
      exact ⟨(tiles_iff_isChain nonempty).mpr ⟨first, chain, last, ordered⟩, within⟩
  · rintro ⟨-, -, cover⟩
    have total := cover.initialDownloaded_eq fits
    exact ⟨fun offset inside => cover.existsUnique inside, _, total, total, fun _ => rfl, cover.sum_le,
      cover.sum_eq_iff⟩

/-- The second of three workers is done, and the last one has an empty range. -/
def partState : DownloadState := .new "u" 10 [⟨0, 3, 6⟩, ⟨6, 10, 10⟩, ⟨10, 10, 10⟩]

theorem validate_exact_part : partState.totalDownloaded = some 7 := by
  obtain ⟨-, total, sum, -, counted, -⟩ := (validate_exact partState (by decide)).2 (by decide)
  rw [sum, ← counted (Multi.start ⟨⟨"u", none, by simp, true, none, none, none⟩, 1, {}⟩)]
  rfl

end FastDownloader
