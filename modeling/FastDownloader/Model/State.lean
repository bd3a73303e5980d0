/-
This file models the resume state of a download and its file format.
-/

import FastDownloader.Model.Http

namespace FastDownloader

def stateFileVersion : Nat := 2

/-- The source calls the field `stop` by the keyword `end`. -/
structure WorkerRange where
  start : Nat
  current : Nat
  stop : Nat
  deriving DecidableEq, Repr

structure DownloadState where
  version : Nat
  url : String
  fileSize : Nat
  etag : Option String
  lastModified : Option String
  workers : List WorkerRange
  deriving DecidableEq, Repr

def DownloadState.new (url : String) (fileSize : Nat) (workers : List WorkerRange) : DownloadState where
  version := stateFileVersion
  url := url
  fileSize := fileSize
  etag := none
  lastModified := none
  workers := workers

def DownloadState.withResourceId (state : DownloadState) (etag lastModified : Option String) :
    DownloadState :=
  { state with etag := etag, lastModified := lastModified }

/-- Two present dates must agree. An absent date proves nothing. -/
def matchesLastModified : Option String → Option String → Bool
  | some saved, some current => saved == current
  | _, _ => true

/-- Only an equal strong `ETag` decides for a resume on its own. -/
def DownloadState.matchesResource (state : DownloadState) (etag lastModified : Option String) : Bool :=
  match state.etag, etag with
  | some saved, some current =>
      if saved ≠ current then false
      else if !isWeak saved then true
      else matchesLastModified state.lastModified lastModified
  | _, _ => matchesLastModified state.lastModified lastModified

/-- The loop of `validate` returns where the next worker must start. -/
def validateWorkers : Nat → Nat → List WorkerRange → Except Error Nat
  | _, expected, [] => .ok expected
  | index, expected, worker :: rest =>
      if worker.start ≠ expected then
        .error (.stateCorrupted s!"worker {index} start={worker.start} expected {expected}")
      else if worker.stop < worker.start then
        .error (.stateCorrupted s!"worker {index} end < start ({worker.stop} < {worker.start})")
      else if worker.current < worker.start ∨ worker.current > worker.stop then
        .error (.stateCorrupted
          s!"worker {index} current={worker.current} out of [{worker.start}, {worker.stop}]")
      else validateWorkers (index + 1) worker.stop rest

def DownloadState.validate (state : DownloadState) : Except Error Unit :=
  if state.version ≠ stateFileVersion then
    .error (.stateCorrupted s!"version mismatch: {state.version} vs {stateFileVersion}")
  else if state.workers.isEmpty then .error (.stateCorrupted "no workers")
  else match validateWorkers 0 0 state.workers with
    | .error error => .error error
    | .ok covered =>
        if covered ≠ state.fileSize then
          .error (.stateCorrupted s!"workers cover {covered} bytes but file_size={state.fileSize}")
        else .ok ()

/-- The text of a state file is written and read back without loss. -/
class SerdeJson (Text : Type) where
  toVec : DownloadState → Text
  fromSlice : Text → Except String DownloadState
  fromSlice_toVec : ∀ state, fromSlice (toVec state) = .ok state

/-- The plainest text of a state is the state itself. -/
instance : SerdeJson DownloadState where
  toVec := id
  fromSlice := .ok
  fromSlice_toVec := fun _ => rfl

/-- A state file is absent, or it holds a text. -/
def load {Text : Type} [SerdeJson Text] : Option Text → Except Error DownloadState
  | none => .error .io
  | some text =>
      match SerdeJson.fromSlice text with
      | .error message => .error (.stateCorrupted ("deserialize: " ++ message))
      | .ok state =>
          match state.validate with
          | .error error => .error error
          | .ok () => .ok state

/-- The loop of `split_workers` gives the last worker all that is left. -/
def splitFrom (fileSize chunk : Nat) : Nat → Nat → List WorkerRange
  | 0, _ => []
  | remaining + 1, pos =>
      let stop := if remaining = 0 then fileSize else pos + chunk
      ⟨pos, pos, stop⟩ :: splitFrom fileSize chunk remaining stop

def effectiveThreads (fileSize threadCount minChunk : Nat) : Nat :=
  let threadCount := max threadCount 1
  if minChunk > 0 then max (min threadCount ((fileSize + minChunk - 1) / minChunk)) 1 else threadCount

/-- The result is absent where the assertion of the source panics. -/
def splitWorkers (fileSize threadCount minChunk : Nat) : Option (List WorkerRange) :=
  if fileSize > 0 then
    let effective := effectiveThreads fileSize threadCount minChunk
    some (splitFrom fileSize (fileSize / effective) effective 0)
  else none

end FastDownloader
