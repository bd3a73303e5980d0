/-
This file models how the digest of a resource is picked from the headers of a response.
-/

import FastDownloader.Foundation.Base64
import FastDownloader.Model.Checksum
import FastDownloader.Model.Filename

namespace FastDownloader.Digest

open Foundation Filename

/-- `BASE64_STANDARD` accepts the padded standard form of the bytes and no other text. -/
structure Base64Standard where
  decode : List Char → Option (List UInt8)
  decode_eq_some : ∀ text bytes, decode text = some bytes ↔ text = Base64.encode bytes

def decodeN (base64 : Base64Standard) (n : Nat) (text : List Char) : Option (Vector UInt8 n) :=
  (base64.decode text).bind fun raw => if size : raw.length = n then some ⟨raw.toArray, size⟩ else none

def rank : Checksum → Nat
  | .sha512 _ => 3
  | .sha256 _ => 2
  | .md5 _ => 1

/-- Both scans keep the best digest so far and its rank. -/
structure Best where
  best : Option Checksum := none
  bestRank : Nat := 0
  deriving DecidableEq, Repr

/-- The loop of `parse_digest_list` considers its entries in the same way. -/
def consider (state : Best) (candidate : Option Checksum) : Best :=
  match candidate with
  | some checksum => if rank checksum > state.bestRank then ⟨some checksum, rank checksum⟩ else state
  | none => state

def trimMatches (mark : Char) (text : List Char) : List Char :=
  (text.dropWhile (· = mark)).rdropWhile (· = mark)

def toAsciiLowercase (text : List Char) : List Char := text.map Char.toLower

/-- This is the `match` on the name of an entry. -/
def decodeNamed (base64 : Base64Standard) (name val : List Char) : Option Checksum :=
  if name = "sha-512".toList ∨ name = "sha512".toList then (decodeN base64 64 val).map .sha512
  else if name = "sha-256".toList ∨ name = "sha256".toList then (decodeN base64 32 val).map .sha256
  else if name = "md5".toList then (decodeN base64 16 val).map .md5
  else none

/-- The value is decoded without the blanks and the colons around it. -/
def parseEntry (base64 : Base64Standard) (entry : List Char) : Option Checksum :=
  (splitOnce '=' (Filename.trim entry)).bind fun (name, val) =>
    decodeNamed base64 (toAsciiLowercase (Filename.trim name)) (Filename.trim (trimMatches ':' (Filename.trim val)))

def parseDigestList (base64 : Base64Standard) (value : List Char) : Option Checksum :=
  ((value.splitOn ',').foldl (fun state entry => consider state (parseEntry base64 entry)) {}).best

def parseContentMd5 (base64 : Base64Standard) (value : List Char) : Option Checksum :=
  (decodeN base64 16 (Filename.trim value)).map .md5

/-- A header that is missing changes nothing. -/
def considerHeader (state : Best) (parse : List Char → Option Checksum) : Option (List Char) → Best
  | some value => consider state (parse value)
  | none => state

def digestFromParts (base64 : Base64Standard) (reprDigest digest contentMd5 : Option (List Char)) : Option Checksum :=
  let state := considerHeader {} (parseDigestList base64) reprDigest
  let state := considerHeader state (parseDigestList base64) digest
  let state := considerHeader state (parseContentMd5 base64) contentMd5
  state.best

end FastDownloader.Digest
