/-
This file compares a disk on which writes are still under way with the disk on which they have taken effect.
-/

import FastDownloader.Proof.Disk.Contents

namespace FastDownloader

open Foundation

/-- The cell without the mark of a sync. -/
def Cell.faded (cell : Cell) : Cell := { cell with durable := false }

theorem Cell.faded_put (byte : UInt8) (cell : Cell) : (cell.put byte).faded = cell.faded.put byte := rfl

@[simp] theorem Cell.faded_sync (cell : Cell) : cell.sync.faded = cell.faded := rfl

namespace Disk

variable {Text : Type} {disk shown : Disk Text}

/-- The disk as a reader sees it, whatever a power loss would leave of it. -/
def faded (disk : Disk Text) : Disk Text := { disk with data := disk.data.map fun file => file.map Cell.faded }

/-- The writes take effect one after another. -/
def writeAll (disk : Disk Text) (placed : List (Nat × List UInt8)) : Disk Text :=
  placed.foldl (fun disk write => disk.write write.1 write.2) disk

@[simp] theorem writeAll_nil (disk : Disk Text) : disk.writeAll [] = disk := rfl

theorem writeAll_cons (disk : Disk Text) (write : Nat × List UInt8) (placed : List (Nat × List UInt8)) :
    disk.writeAll (write :: placed) = (disk.write write.1 write.2).writeAll placed := rfl

/-- The writes cover different offsets. -/
def Apart (write other : Nat × List UInt8) : Prop :=
  write.1 + write.2.length ≤ other.1 ∨ other.1 + other.2.length ≤ write.1

theorem write_comm {write other : Nat × List UInt8} (disk : Disk Text) (apart : Apart write other) :
    (disk.write write.1 write.2).write other.1 other.2 = (disk.write other.1 other.2).write write.1 write.2 := by
  unfold Disk.write
  cases disk.data with
  | none => rfl
  | some file => simp only [Option.map_some, writeAt_comm file apart]

/-- Writes that are apart from each other may take effect in any order. -/
theorem writeAll_perm {placed others : List (Nat × List UInt8)} (same : placed.Perm others)
    (apart : ∀ write ∈ placed, ∀ other ∈ placed, write = other ∨ Apart write other) (disk : Disk Text) :
    disk.writeAll placed = disk.writeAll others := by
  refine same.foldl_eq' (fun write first other second disk => ?_) disk
  rcases apart write first other second with rfl | separate
  · rfl
  · exact write_comm disk separate

/-- A write at the end of the list takes effect last. -/
theorem writeAll_append (disk : Disk Text) (placed : List (Nat × List UInt8)) (write : Nat × List UInt8) :
    disk.writeAll (placed ++ [write]) = (disk.writeAll placed).write write.1 write.2 := by
  rw [writeAll, List.foldl_append]
  rfl

theorem faded_write (disk : Disk Text) (offset : Nat) (bytes : List UInt8) :
    (disk.write offset bytes).faded = disk.faded.write offset bytes := by
  unfold faded Disk.write
  cases disk.data with
  | none => rfl
  | some file =>
      have mapped : (writeAt Cell.hole Cell.put offset bytes file).map Cell.faded =
          writeAt Cell.hole Cell.put offset bytes (file.map Cell.faded) :=
        map_writeAt rfl Cell.faded_put offset bytes file
      simp only [Option.map_some, mapped]

theorem faded_writeAll (disk : Disk Text) (placed : List (Nat × List UInt8)) :
    (disk.writeAll placed).faded = disk.faded.writeAll placed := by
  induction placed generalizing disk with
  | nil => rfl
  | cons write placed ih => rw [writeAll_cons, writeAll_cons, ih, faded_write]

@[simp] theorem faded_sync (disk : Disk Text) : disk.sync.faded = disk.faded := by
  unfold faded sync
  cases disk.data with
  | none => rfl
  | some file => simp [Function.comp_def]

theorem faded_openCreate (disk : Disk Text) : disk.openCreate.faded = disk.faded.openCreate := by
  unfold faded openCreate
  cases disk.data <;> rfl

theorem faded_create (disk : Disk Text) : disk.create.faded = disk.faded.create := rfl

theorem faded_setLen (disk : Disk Text) (length : Nat) : (disk.setLen length).faded = disk.faded.setLen length := by
  unfold faded setLen
  cases disk.data with
  | none => rfl
  | some file =>
      have mapped : (resize Cell.hole length file).map Cell.faded = resize Cell.hole length (file.map Cell.faded) :=
        map_resize rfl length file
      simp only [Option.map_some, mapped]

theorem writeAll_saveState (disk : Disk Text) (placed : List (Nat × List UInt8)) (text : Text) :
    (disk.saveState text).writeAll placed = (disk.writeAll placed).saveState text := by
  induction placed generalizing disk with
  | nil => rfl
  | cons write placed ih =>
      rw [writeAll_cons, writeAll_cons]
      exact ih (disk.write write.1 write.2)

/-- What a reader sees of the file does not depend on what is durable. -/
theorem contents_faded (disk : Disk Text) : disk.faded.contents = disk.contents := by
  unfold contents faded
  cases disk.data with
  | none => rfl
  | some file => simp [Cell.faded, Function.comp_def]

theorem cell_faded (disk : Disk Text) (position : Nat) : disk.faded.cell position = (disk.cell position).faded := by
  unfold cell faded
  cases disk.data with
  | none => rfl
  | some file =>
      simp only [Option.map_some, Option.getD_some, List.getElem?_map]
      cases file[position]? <;> rfl

section Seen

variable (seen : shown.faded = disk.faded)

include seen

theorem contents_seen : shown.contents = disk.contents := by
  rw [← contents_faded, seen, contents_faded]

theorem length_seen : shown.length = disk.length := by
  rw [length_eq, length_eq, contents_seen seen]

theorem isSome_seen : shown.data.isSome = disk.data.isSome := by
  have same := congrArg (·.data.isSome) seen
  simpa only [faded, Option.isSome_map] using same

theorem cell_seen (position : Nat) : (shown.cell position).faded = (disk.cell position).faded := by
  rw [← cell_faded, seen, cell_faded]

theorem byte_seen (position : Nat) : (shown.cell position).byte = (disk.cell position).byte := by
  have same := congrArg Cell.byte (cell_seen seen position)
  exact same

theorem writes_seen (position : Nat) : (shown.cell position).writes = (disk.cell position).writes := by
  have same := congrArg Cell.writes (cell_seen seen position)
  exact same

end Seen

theorem dlstate_writeAll (disk : Disk Text) (placed : List (Nat × List UInt8)) :
    (disk.writeAll placed).dlstate = disk.dlstate := by
  induction placed generalizing disk with
  | nil => rfl
  | cons write placed ih => exact ih (disk.write write.1 write.2)

/-- The state file is not touched by the writes that are under way. -/
theorem dlstate_seen {placed : List (Nat × List UInt8)} (seen : shown.faded = (disk.writeAll placed).faded) :
    shown.dlstate = disk.dlstate :=
  (congrArg Disk.dlstate seen).trans (dlstate_writeAll disk placed)

end Disk

end FastDownloader
