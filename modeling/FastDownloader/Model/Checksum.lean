/-
This file holds the content digests of finished files.
-/

import FastDownloader.Model.Error

namespace FastDownloader

inductive Checksum where
  | md5 (bytes : Vector UInt8 16)
  | sha256 (bytes : Vector UInt8 32)
  | sha512 (bytes : Vector UInt8 64)
  deriving DecidableEq, Repr

def Checksum.algorithm : Checksum → String
  | .md5 _ => "md5"
  | .sha256 _ => "sha-256"
  | .sha512 _ => "sha-512"

def Checksum.bytes : Checksum → List UInt8
  | .md5 bytes => bytes.toList
  | .sha256 bytes => bytes.toList
  | .sha512 bytes => bytes.toList

def hexDigit (nibble : Nat) : Char :=
  if nibble < 10 then Char.ofNat (48 + nibble) else Char.ofNat (87 + nibble)

def Checksum.toHex (checksum : Checksum) : String :=
  String.ofList (checksum.bytes.flatMap fun byte => [hexDigit (byte.toNat / 16), hexDigit (byte.toNat % 16)])

/-- This is the text that `Display` gives. -/
def Checksum.display (checksum : Checksum) : String :=
  checksum.algorithm ++ ":" ++ checksum.toHex

/-- The hash crates compute one digest for each algorithm. -/
structure Hasher where
  md5 : List UInt8 → Vector UInt8 16
  sha256 : List UInt8 → Vector UInt8 32
  sha512 : List UInt8 → Vector UInt8 64

/-- The file is hashed with the algorithm of the expected digest. -/
def Hasher.computeBlocking (hasher : Hasher) (contents : List UInt8) : Checksum → Checksum
  | .md5 _ => .md5 (hasher.md5 contents)
  | .sha256 _ => .sha256 (hasher.sha256 contents)
  | .sha512 _ => .sha512 (hasher.sha512 contents)

/-- A failed open or read keeps the file from being hashed at all. -/
def Hasher.verifyFile (hasher : Hasher) (contents : Option (List UInt8)) (expected : Checksum) :
    Except Error Unit :=
  match contents with
  | none => .error .io
  | some contents =>
      let actual := hasher.computeBlocking contents expected
      if actual = expected then .ok ()
      else .error (.checksumMismatch expected.display actual.display)

end FastDownloader
