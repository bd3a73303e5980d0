/-
This file models how a file is read piece by piece and hashed.
-/

import FastDownloader.Model.Checksum

namespace FastDownloader

/-- A hash crate takes a text in pieces and gives its digest of n bytes at the end. -/
structure Digester (n : Nat) where
  State : Type
  new : State
  update : State → List UInt8 → State
  finalize : State → Vector UInt8 n

/-- These are the crates that the downloader hashes with. -/
structure Digesters where
  md5 : Digester 16
  sha256 : Digester 32
  sha512 : Digester 64

/-- A read may give fewer bytes than it is asked for, or fail. -/
inductive Reading where
  | gives (count : Nat)
  | fails
  deriving DecidableEq, Repr

/-- The buffer of the loop and that of the reader hold this many bytes. -/
def bufSize : Nat := 1 <<< 20

/-- Only at the end of the file does a read give no byte. -/
def Reading.piece (count : Nat) (rest : List UInt8) : List UInt8 := rest.take (min (max count 1) bufSize)

/-- The loop is still reading when the list of its reads is used up. -/
def hashLoop {n : Nat} (digester : Digester n) (state : digester.State) (rest : List UInt8) :
    List Reading → Option (Except Error (Vector UInt8 n))
  | [] => none
  | .fails :: _ => some (.error .io)
  | .gives count :: readings =>
      let piece := Reading.piece count rest
      if piece.length = 0 then some (.ok (digester.finalize state))
      else hashLoop digester (digester.update state piece) (rest.drop piece.length) readings

def hashWith {n : Nat} (digester : Digester n) (contents : List UInt8) (readings : List Reading) :
    Option (Except Error (Vector UInt8 n)) :=
  hashLoop digester digester.new contents readings

namespace Digesters

/-- A file that cannot be opened is none. -/
def computeBlocking (digesters : Digesters) (file : Option (List UInt8)) (readings : List Reading)
    (like : Checksum) : Option (Except Error Checksum) :=
  match file with
  | none => some (.error .io)
  | some contents =>
      match like with
      | .md5 _ => (hashWith digesters.md5 contents readings).map (Except.map .md5)
      | .sha256 _ => (hashWith digesters.sha256 contents readings).map (Except.map .sha256)
      | .sha512 _ => (hashWith digesters.sha512 contents readings).map (Except.map .sha512)

/-- The blocking task may fail to be joined. -/
def verifyFile (digesters : Digesters) (file : Option (List UInt8)) (readings : List Reading) (joined : Bool)
    (expected : Checksum) : Option (Except Error Unit) :=
  (digesters.computeBlocking file readings expected).map fun computed =>
    if joined then
      computed.bind fun actual =>
        if actual = expected then .ok ()
        else .error (.checksumMismatch expected.display actual.display)
    else .error .io

end Digesters

end FastDownloader
