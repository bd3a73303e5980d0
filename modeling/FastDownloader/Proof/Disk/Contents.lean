/-
This file relates the disk operations to the bytes that a reader of the data file sees.
-/

import FastDownloader.Proof.Disk.Cells

namespace FastDownloader

open Foundation

/-- A piece that goes on where a prefix ends makes a longer prefix. -/
theorem prefix_append_drop {content held bytes : List UInt8} (start : held <+: content)
    (rest : bytes <+: content.drop held.length) : held ++ bytes <+: content := by
  obtain ⟨behind, rfl⟩ := start
  rw [List.drop_left] at rest
  exact (List.prefix_append_right_inj held).mpr rest

/-- Bytes that go on at this position go on behind their own first part. -/
theorem prefix_drop_drop {content bytes rest : List UInt8} {position : Nat}
    (whole : bytes ++ rest <+: content.drop position) : rest <+: content.drop (position + bytes.length) := by
  obtain ⟨behind, same⟩ := whole
  refine ⟨behind, ?_⟩
  rw [← List.drop_drop, ← same, List.append_assoc, List.drop_left]

namespace Disk

variable {Text : Type} {disk : Disk Text} {content held bytes : List UInt8} {position : Nat}

theorem length_of_contents (present : disk.contents = some held) : disk.length = held.length := by
  obtain ⟨file, opened, rfl⟩ := Option.map_eq_some_iff.mp present
  simp [length, opened]

theorem length_eq (disk : Disk Text) : disk.length = (disk.contents.getD []).length := by
  unfold contents length
  cases disk.data <;> simp

/-- A file that is not empty is there. -/
theorem contents_of_pos (positive : 0 < disk.length) :
    ∃ held, disk.contents = some held ∧ held.length = disk.length := by
  unfold contents
  unfold length at *
  cases opened : disk.data with
  | none => simp [opened] at positive
  | some file => exact ⟨_, rfl, by simp⟩

@[simp] theorem contents_sync : disk.sync.contents = disk.contents := by
  unfold contents sync
  cases disk.data with
  | none => rfl
  | some file => simp [Cell.sync, Function.comp_def]

/-- An open with `create` makes an empty file only where there is none. -/
theorem contents_openCreate : disk.openCreate.contents = some (disk.contents.getD []) := by
  unfold contents openCreate
  cases disk.data <;> rfl

/-- A write at the end of the file appends its bytes. -/
theorem contents_write (present : disk.contents = some held) (bytes : List UInt8) :
    (disk.write held.length bytes).contents = some (held ++ bytes) := by
  obtain ⟨file, opened, rfl⟩ := Option.map_eq_some_iff.mp present
  simp [contents, write, opened, writeAt_length, Cell.put, Function.comp_def]

/-- An offset behind the end reads as zero. -/
theorem cell_byte (position : Nat) :
    (disk.cell position).byte = (disk.contents.getD [])[position]?.getD 0 := by
  unfold cell contents
  cases disk.data with
  | none => rfl
  | some file =>
      simp only [Option.getD_some, Option.map_some, List.getElem?_map]
      cases file[position]? <;> rfl

theorem byte_of_contents (whole : disk.contents = some content) (inside : position < content.length) :
    content[position]? = some (disk.cell position).byte := by
  rw [cell_byte, whole]
  simp [List.getElem?_eq_getElem inside]

/-- The data file holds the first bytes of the content, up to this position. -/
def Holds (disk : Disk Text) (content : List UInt8) (position : Nat) : Prop :=
  ∃ held, disk.contents = some held ∧ held.length = position ∧ held <+: content

theorem Holds.write (holds : disk.Holds content position) (suited : bytes <+: content.drop position) :
    (disk.write position bytes).Holds content (position + bytes.length) := by
  obtain ⟨held, present, rfl, start⟩ := holds
  exact ⟨held ++ bytes, contents_write present bytes, List.length_append, prefix_append_drop start suited⟩

end Disk

end FastDownloader
