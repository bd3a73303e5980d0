/-
This file gives the cell of the data file at each offset and what every disk operation does to it.
-/

import FastDownloader.Model.Disk

namespace FastDownloader

open Foundation

/-- Bytes at this place of the file cover the offset. -/
def Covers (offset : Nat) (bytes : List UInt8) (position : Nat) : Prop :=
  offset ≤ position ∧ position < offset + bytes.length

/-- These bytes count once at each offset that they cover. -/
def covering (position : Nat) (placed : Nat × List UInt8) : Nat :=
  if placed.1 ≤ position ∧ position < placed.1 + placed.2.length then 1 else 0

/-- The kept and the missing part of a write cover what the whole write covers. -/
theorem covering_split (position offset kept : Nat) (bytes : List UInt8) :
    covering position (offset, bytes.take kept) + covering position (offset + kept, bytes.drop kept) =
      covering position (offset, bytes) := by
  simp only [covering, List.length_take, List.length_drop]
  split_ifs <;> omega

namespace Disk

variable {Text : Type} {disk : Disk Text}

/-- An offset behind the end of the file, or of no file at all, reads as a hole. -/
def cell (disk : Disk Text) (position : Nat) : Cell := (disk.data.getD [])[position]?.getD Cell.hole

/-- The data file exists and has this length. -/
def Sized (disk : Disk Text) (length : Nat) : Prop := ∃ file, disk.data = some file ∧ file.length = length

theorem Sized.isSome {length : Nat} (sized : disk.Sized length) : disk.data.isSome = true := by
  obtain ⟨file, present, _⟩ := sized
  simp [present]

@[simp] theorem cell_openCreate (position : Nat) : disk.openCreate.cell position = disk.cell position := by
  simp [cell, openCreate]

@[simp] theorem cell_saveState (text : Text) (position : Nat) :
    (disk.saveState text).cell position = disk.cell position := rfl

/-- The resize keeps every cell below the new length. -/
theorem cell_setLen {length position : Nat} (below : position < length) :
    (disk.setLen length).cell position = disk.cell position := by
  unfold cell setLen
  cases disk.data with
  | none => rfl
  | some file =>
      simp only [Option.map_some, Option.getD_some]
      rw [getElem?_resize below, Option.getD_some]

/-- A sync marks the cells that are there. -/
theorem cell_sync (position : Nat) :
    disk.sync.cell position = disk.cell position ∨ disk.sync.cell position = (disk.cell position).sync := by
  unfold cell sync
  cases disk.data with
  | none => exact Or.inl rfl
  | some file =>
      simp only [Option.map_some, Option.getD_some, List.getElem?_map]
      cases file[position]? with
      | none => exact Or.inl rfl
      | some cell => exact Or.inr rfl

theorem byte_sync (position : Nat) : (disk.sync.cell position).byte = (disk.cell position).byte := by
  rcases disk.cell_sync position with same | marked
  · rw [same]
  · rw [marked]
    rfl

/-- A sync writes nothing. -/
theorem writes_sync (position : Nat) : (disk.sync.cell position).writes = (disk.cell position).writes := by
  rcases disk.cell_sync position with same | marked
  · rw [same]
  · rw [marked]
    rfl

/-- A written offset holds the byte of the write on top of its old cell. -/
theorem cell_write_inside {offset position : Nat} {bytes : List UInt8} {byte : UInt8}
    (present : disk.data.isSome = true) (lower : offset ≤ position)
    (written : bytes[position - offset]? = some byte) :
    (disk.write offset bytes).cell position = (disk.cell position).put byte := by
  obtain ⟨file, opened⟩ := Option.isSome_iff_exists.mp present
  simp only [cell, write, opened, Option.map_some, Option.getD_some]
  exact getD_writeAt_inside lower written

/-- A write leaves every other offset alone. -/
theorem cell_write_outside {offset position : Nat} {bytes : List UInt8}
    (outside : ¬ Covers offset bytes position) :
    (disk.write offset bytes).cell position = disk.cell position := by
  unfold cell write
  cases disk.data with
  | none => rfl
  | some file => exact getD_writeAt_outside (by unfold Covers at outside; omega)

/-- A write puts at most one byte on top of each cell. -/
theorem cell_write_cases (offset : Nat) (bytes : List UInt8) (position : Nat) :
    (disk.write offset bytes).cell position = disk.cell position ∨
      ∃ byte, (disk.write offset bytes).cell position = (disk.cell position).put byte := by
  by_cases covered : Covers offset bytes position
  · cases present : disk.data with
    | none => exact Or.inl (by simp [cell, write, present])
    | some file =>
        have short : position - offset < bytes.length := by
          unfold Covers at covered
          omega
        exact Or.inr ⟨_, cell_write_inside (by simp [present]) covered.1 (List.getElem?_eq_getElem short)⟩
  · exact Or.inl (cell_write_outside covered)

/-- A write counts once at each offset that it covers. -/
theorem writes_write (present : disk.data.isSome = true) (offset : Nat) (bytes : List UInt8) (position : Nat) :
    ((disk.write offset bytes).cell position).writes =
      (disk.cell position).writes + covering position (offset, bytes) := by
  by_cases covered : Covers offset bytes position
  · have short : position - offset < bytes.length := by
      unfold Covers at covered
      omega
    have once : covering position (offset, bytes) = 1 := if_pos covered
    rw [cell_write_inside present covered.1 (List.getElem?_eq_getElem short), once]
    rfl
  · have never : covering position (offset, bytes) = 0 := if_neg covered
    rw [cell_write_outside covered, never]
    rfl

/-- A write inside the file keeps its length. -/
theorem Sized.write {offset length : Nat} {bytes : List UInt8} (sized : disk.Sized length)
    (inside : offset + bytes.length ≤ length) : (disk.write offset bytes).Sized length := by
  obtain ⟨file, present, rfl⟩ := sized
  exact ⟨writeAt Cell.hole Cell.put offset bytes file, by simp [Disk.write, present], length_writeAt inside⟩

theorem Sized.sync {length : Nat} (sized : disk.Sized length) : disk.sync.Sized length := by
  obtain ⟨file, present, rfl⟩ := sized
  exact ⟨file.map Cell.sync, by simp [Disk.sync, present], List.length_map _⟩

/-- The resize of a file that is there gives it the new length. -/
theorem sized_setLen {length : Nat} (present : disk.data.isSome = true) : (disk.setLen length).Sized length := by
  obtain ⟨file, opened⟩ := Option.isSome_iff_exists.mp present
  exact ⟨resize Cell.hole length file, by simp [setLen, opened], length_resize length file⟩

/-- A file of the right length with the right byte at each offset has the right contents. -/
theorem Sized.contents {content : List UInt8} (sized : disk.Sized content.length)
    (right : ∀ position byte, content[position]? = some byte → (disk.cell position).byte = byte) :
    disk.contents = some content := by
  obtain ⟨file, present, length⟩ := sized
  simp only [Disk.contents, present, Option.map_some, Option.some.injEq]
  refine List.ext_getElem (by simp [length]) fun position inFile inContent => ?_
  rw [← right position _ (List.getElem?_eq_getElem inContent)]
  have inside : position < file.length := by simpa using inFile
  simp [cell, present, List.getElem?_eq_getElem inside]

end Disk

end FastDownloader
