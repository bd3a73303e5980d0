/-
This file models `save`, which writes a temporary file part by part and renames it.
The bytes of a file may be of any type.
-/

import FastDownloader.Foundation.Directory
import FastDownloader.Foundation.Session
import FastDownloader.Model.State

namespace FastDownloader

open Foundation

/-- Every save of one state file uses the same temporary name. -/
def tmpPathFor (path : String) : String := path ++ ".tmp"

/-- The handle of the temporary file carries at most one background write. -/
inductive TmpHandle (Byte : Type) where
  | closed
  | idle
  | busy (bytes : List Byte)
  | failed

/-- The rest of a `write_all` has not been handed to a background write yet. -/
inductive SavePc (Byte : Type) where
  | creating (bytes : List Byte)
  | writing (rest : List Byte)
  | flushing
  | syncing
  | persisting
  | returned (result : Except Error Unit)

structure Save (Byte : Type) where
  pc : SavePc Byte
  handle : TmpHandle Byte

inductive SaveEvent where
  | created (ok : Bool)
  | handed (size : Nat)
  | writeFailed
  | wrote
  | land
  | lose (kept : Nat)
  | flushed (ok : Bool)
  | synced (ok : Bool)
  | renamed (ok : Bool)

namespace Save

variable {Byte : Type} [SerdeJson (List Byte)]

def start (state : DownloadState) : Save Byte := ⟨.creating (SerdeJson.toVec state), .closed⟩

def fail : Save Byte := ⟨.returned (.error .io), .closed⟩

omit [SerdeJson (List Byte)] in
/-- This is one step of the save. A part is handed over once the write before it has ended. The result of the sync is
dropped. -/
def step (path : String) : Step (Directory String Byte × Save Byte) SaveEvent := fun (files, save) event =>
  match save.pc, save.handle, event with
  | _, .busy bytes, .land => some (files.append (tmpPathFor path) bytes, { save with handle := .idle })
  | _, .busy bytes, .lose kept =>
      some (files.append (tmpPathFor path) (bytes.take kept), { save with handle := .failed })
  | .creating bytes, _, .created ok =>
      if ok then some (files.create (tmpPathFor path), ⟨.writing bytes, .idle⟩) else some (files, fail)
  | .writing rest, .idle, .handed size =>
      if rest.isEmpty then none else some (files, ⟨.writing (rest.drop size), .busy (rest.take size)⟩)
  | .writing rest, .failed, .writeFailed => if rest.isEmpty then none else some (files, fail)
  | .writing rest, handle, .wrote => if rest.isEmpty then some (files, ⟨.flushing, handle⟩) else none
  | .flushing, .idle, .flushed true => some (files, ⟨.syncing, .idle⟩)
  | .flushing, .failed, .flushed false => some (files, fail)
  | .syncing, _, .synced _ => some (files, ⟨.persisting, .closed⟩)
  | .persisting, _, .renamed ok =>
      if ok then some (files.rename (tmpPathFor path) path, ⟨.returned (.ok ()), .closed⟩) else some (files, fail)
  | _, _, _ => none

def outcome (save : Save Byte) : Option (Except Error Unit) :=
  match save.pc with
  | .returned result => some result
  | _ => none

end Save

/-- The saves of one state file share its directory. -/
def saving {Byte : Type} [SerdeJson (List Byte)] (path : String) :
    Program (Directory String Byte) (Save Byte) DownloadState SaveEvent (Except Error Unit) where
  start := Save.start
  step _ := Save.step path
  outcome := Save.outcome

end FastDownloader
