/-
This file lists the errors of the downloader and the tests that its code makes on them.
-/

import Mathlib.Algebra.Order.Ring.Nat

namespace FastDownloader

/-- No code reads the payload of a transport or disk error, so it is left out. -/
inductive Error where
  | invalidUrl (url : String)
  | http
  | io
  | status (code : Nat)
  | noRangeSupport
  | resourceChanged
  | sizeMismatch (expected actual : Nat)
  | checksumMismatch (expected actual : String)
  | invalidChecksum (message : String)
  | cancelled
  | retryExhausted (attempts : Nat) (source : Error)
  | invalidSavePath (path : String)
  | stateCorrupted (message : String)
  | queueClosed
  | taskNotFound (id : Nat)
  | unknownLength
  deriving DecidableEq, Repr

def Error.isCancelled : Error → Bool
  | .cancelled => true
  | _ => false

def Error.isResourceChanged : Error → Bool
  | .resourceChanged => true
  | _ => false

theorem Error.isResourceChanged_iff (error : Error) :
    error.isResourceChanged = true ↔ error = .resourceChanged := by
  cases error <;> simp [isResourceChanged]

end FastDownloader
