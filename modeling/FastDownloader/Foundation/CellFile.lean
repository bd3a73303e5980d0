/-
This file models a random-access file whose cells may carry more than a byte.
-/

import Mathlib.Algebra.Order.Ring.Nat
import Mathlib.Data.List.Basic
import Mathlib.Tactic.Common

namespace FastDownloader.Foundation

variable {Cell Value : Type*}

/-- The resize keeps the cells below the new length and fills the rest with blank cells. -/
def resize (blank : Cell) (length : Nat) (file : List Cell) : List Cell :=
  (file.take length).rightpad length blank

/-- A write puts each value into its cell. A gap before the write becomes blank cells. -/
def writeAt (blank : Cell) (put : Value → Cell → Cell) (offset : Nat) (values : List Value)
    (file : List Cell) : List Cell :=
  if values.isEmpty then file
  else (file.rightpad (offset + values.length) blank).mapIdx fun position cell =>
    if offset ≤ position then
      match values[position - offset]? with
      | some value => put value cell
      | none => cell
    else cell

variable {blank : Cell} {put : Value → Cell → Cell}

@[simp] theorem length_resize (length : Nat) (file : List Cell) :
    (resize blank length file).length = length := by
  rw [resize, List.length_rightpad, List.length_take]
  omega

/-- The resize keeps each cell below the new length. -/
theorem getElem?_resize {length position : Nat} {file : List Cell} (below : position < length) :
    (resize blank length file)[position]? = some (file[position]?.getD blank) := by
  rw [resize, List.rightpad, List.length_take]
  by_cases inside : position < file.length
  · rw [List.getElem?_append_left (by simp; omega), List.getElem?_take_of_lt below]
    simp [List.getElem?_eq_getElem inside]
  · rw [List.getElem?_append_right (by simp; omega), List.length_take,
      List.getElem?_replicate_of_lt (by omega), List.getElem?_eq_none (by omega)]
    rfl

theorem length_writeAt {offset : Nat} {values : List Value} {file : List Cell}
    (inside : offset + values.length ≤ file.length) :
    (writeAt blank put offset values file).length = file.length := by
  unfold writeAt
  split
  · rfl
  · simp [inside]

/-- Padding with blank cells changes no cell, because a cell behind the end reads as blank. -/
theorem getD_rightpad (length position : Nat) (file : List Cell) :
    (file.rightpad length blank)[position]?.getD blank = file[position]?.getD blank := by
  rw [List.rightpad]
  by_cases inside : position < file.length
  · rw [List.getElem?_append_left inside]
  · rw [List.getElem?_append_right (Nat.le_of_not_lt inside), List.getElem?_eq_none (Nat.le_of_not_lt inside),
      List.getElem?_replicate]
    split <;> rfl

/-- A written cell holds its value on top of what it held before. -/
theorem getD_writeAt_inside {offset position : Nat} {values : List Value} {file : List Cell}
    {value : Value} (lower : offset ≤ position) (written : values[position - offset]? = some value) :
    (writeAt blank put offset values file)[position]?.getD blank = put value (file[position]?.getD blank) := by
  have short : position - offset < values.length := (List.getElem?_eq_some_iff.mp written).1
  have nonempty : ¬ values.isEmpty = true := by
    intro empty
    simp [List.isEmpty_iff.mp empty] at short
  have inside : position < (file.rightpad (offset + values.length) blank).length := by
    rw [List.length_rightpad]
    omega
  rw [← getD_rightpad (offset + values.length) position file, writeAt, if_neg nonempty,
    List.getElem?_mapIdx, List.getElem?_eq_getElem inside]
  simp [lower, written]

/-- A write keeps each cell outside its range. -/
theorem getD_writeAt_outside {offset position : Nat} {values : List Value} {file : List Cell}
    (outside : position < offset ∨ offset + values.length ≤ position) :
    (writeAt blank put offset values file)[position]?.getD blank = file[position]?.getD blank := by
  unfold writeAt
  split
  · rfl
  rw [List.getElem?_mapIdx, ← getD_rightpad (offset + values.length) position file]
  cases (file.rightpad (offset + values.length) blank)[position]? with
  | none => rfl
  | some cell =>
      rcases outside with before | behind
      · simp [Nat.not_le_of_lt before]
      · simp [List.getElem?_eq_none (by omega : values.length ≤ position - offset)]

/-- A write at the end appends fresh cells. -/
theorem writeAt_length (values : List Value) (file : List Cell) :
    writeAt blank put file.length values file = file ++ values.map fun value => put value blank := by
  unfold writeAt
  split
  · rename_i empty
    simp [List.isEmpty_iff.mp empty]
  · apply List.ext_getElem?
    intro position
    rw [List.getElem?_mapIdx, List.rightpad]
    by_cases inside : position < file.length
    · rw [List.getElem?_append_left inside, List.getElem?_append_left inside,
        List.getElem?_eq_getElem inside, Option.map_some, if_neg (by omega)]
    · rw [List.getElem?_append_right (by omega), List.getElem?_append_right (by omega)]
      by_cases short : position - file.length < values.length
      · rw [List.getElem?_replicate_of_lt (by omega), List.getElem?_map,
          List.getElem?_eq_getElem short]
        simp [Nat.le_of_not_lt inside]
      · rw [List.getElem?_eq_none (by simp; omega : (List.replicate _ blank).length ≤ _),
          List.getElem?_eq_none (by simp; omega : (values.map _).length ≤ _)]
        rfl

/-- A write reaches its own end, also behind the end of the file. -/
theorem length_writeAt_eq (offset : Nat) (values : List Value) (file : List Cell) :
    (writeAt blank put offset values file).length =
      if values.isEmpty then file.length else max (offset + values.length) file.length := by
  unfold writeAt
  split
  · rfl
  · rw [List.length_mapIdx, List.length_rightpad]

/-- Files of one length with the same cell at each place are equal. -/
theorem eq_of_getD (blank : Cell) {file other : List Cell} (length : file.length = other.length)
    (same : ∀ position : Nat, file[position]?.getD blank = other[position]?.getD blank) : file = other := by
  refine List.ext_getElem length fun position inside below => ?_
  have cell := same position
  rwa [List.getElem?_eq_getElem inside, List.getElem?_eq_getElem below] at cell

/-- Writes to different cells may come in either order. -/
theorem writeAt_comm {offset other : Nat} {values others : List Value} (file : List Cell)
    (apart : offset + values.length ≤ other ∨ other + others.length ≤ offset) :
    writeAt blank put other others (writeAt blank put offset values file) =
      writeAt blank put offset values (writeAt blank put other others file) := by
  refine eq_of_getD blank ?_ fun position => ?_
  · simp only [length_writeAt_eq]
    split_ifs <;> omega
  · by_cases first : offset ≤ position ∧ position < offset + values.length
    · have written := List.getElem?_eq_getElem (by omega : position - offset < values.length)
      rw [getD_writeAt_outside (by omega), getD_writeAt_inside first.1 written,
        getD_writeAt_inside first.1 written, getD_writeAt_outside (by omega)]
    · by_cases second : other ≤ position ∧ position < other + others.length
      · have written := List.getElem?_eq_getElem (by omega : position - other < others.length)
        rw [getD_writeAt_inside second.1 written, getD_writeAt_outside (by omega),
          getD_writeAt_outside (by omega), getD_writeAt_inside second.1 written]
      · iterate 4 rw [getD_writeAt_outside (by omega)]

/-- What is kept of each cell may be kept before a write, when the write sets it no matter what else was there. -/
theorem map_writeAt {keep : Cell → Cell} (keeps_blank : keep blank = blank)
    (keeps_put : ∀ value cell, keep (put value cell) = put value (keep cell)) (offset : Nat) (values : List Value)
    (file : List Cell) :
    (writeAt blank put offset values file).map keep = writeAt blank put offset values (file.map keep) := by
  have kept : ∀ (cells : List Cell) (position : Nat),
      (cells.map keep)[position]?.getD blank = keep (cells[position]?.getD blank) := by
    intro cells position
    rw [List.getElem?_map, ← keeps_blank, Option.getD_map, keeps_blank]
  refine eq_of_getD blank ?_ fun position => ?_
  · simp only [List.length_map, length_writeAt_eq]
  · rw [kept]
    by_cases inside : offset ≤ position ∧ position < offset + values.length
    · have written := List.getElem?_eq_getElem (by omega : position - offset < values.length)
      rw [getD_writeAt_inside inside.1 written, getD_writeAt_inside inside.1 written, keeps_put, kept]
    · rw [getD_writeAt_outside (by omega), getD_writeAt_outside (by omega), kept]

theorem map_resize {keep : Cell → Cell} (keeps_blank : keep blank = blank) (length : Nat) (file : List Cell) :
    (resize blank length file).map keep = resize blank length (file.map keep) := by
  simp only [resize, List.rightpad, List.map_append, List.map_take, List.map_replicate, keeps_blank,
    List.length_take, List.length_map]

end FastDownloader.Foundation
