/-
This file models the data file and the state file of one save path.
-/

import FastDownloader.Foundation.CellFile
import FastDownloader.Model.State

namespace FastDownloader

open Foundation

/-- A cell of the data file counts the writes that reached it and records whether its byte is durable. -/
structure Cell where
  byte : UInt8
  writes : Nat
  durable : Bool
  deriving DecidableEq, Repr

/-- A length change fills new cells with zero bytes that no write has reached. -/
def Cell.hole : Cell := ⟨0, 0, false⟩

/-- A new byte is not durable before the next sync. -/
def Cell.put (byte : UInt8) (cell : Cell) : Cell := ⟨byte, cell.writes + 1, false⟩

def Cell.sync (cell : Cell) : Cell := { cell with durable := true }

structure Disk (Text : Type) where
  data : Option (List Cell)
  dlstate : Option Text
  deriving DecidableEq

namespace Disk

variable {Text : Type} (disk : Disk Text)

/-- The bytes that a reader of the data file sees. -/
def contents : Option (List UInt8) := disk.data.map fun file => file.map Cell.byte

/-- The length is zero when there is no data file. -/
def length : Nat := (disk.data.getD []).length

/-- This open creates the file when it is absent and keeps its bytes otherwise. -/
def openCreate : Disk Text := { disk with data := some (disk.data.getD []) }

/-- `File::create` truncates. -/
def create : Disk Text := { disk with data := some [] }

def setLen (length : Nat) : Disk Text :=
  { disk with data := disk.data.map (resize Cell.hole length) }

def write (offset : Nat) (bytes : List UInt8) : Disk Text :=
  { disk with data := disk.data.map (writeAt Cell.hole Cell.put offset bytes) }

def sync : Disk Text := { disk with data := disk.data.map fun file => file.map Cell.sync }

def removeData : Disk Text := { disk with data := none }

/-- The rename replaces the whole state file. -/
def saveState (text : Text) : Disk Text := { disk with dlstate := some text }

def deleteState : Disk Text := { disk with dlstate := none }

end Disk

end FastDownloader
