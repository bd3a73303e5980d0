/-
This file holds what a probe learns about a resource and what a server answers to a request.
-/

import Mathlib.Tactic.SplitIfs
import FastDownloader.Model.Checksum

namespace FastDownloader

/-- A weak validator starts with `W/`. -/
def isWeak (tag : String) : Bool := "W/".toList.isPrefixOf tag.toList

/-- The length of a resource is a `u64`. -/
structure FileInfo where
  finalUrl : String
  size : Option Nat
  sizeFits : ∀ bytes ∈ size, bytes < 2 ^ 64
  supportsRange : Bool
  etag : Option String
  lastModified : Option String
  digest : Option Checksum
  deriving DecidableEq

theorem fits_none : ∀ bytes ∈ (none : Option Nat), bytes < 2 ^ 64 := by simp

theorem fits_one : ∀ bytes ∈ some 1, bytes < 2 ^ 64 := by simp

theorem fits_two : ∀ bytes ∈ some 2, bytes < 2 ^ 64 := by simp

theorem fits_three : ∀ bytes ∈ some 3, bytes < 2 ^ 64 := by simp

/-- A weak `ETag` may not be sent in `If-Range`, so `Last-Modified` replaces it. -/
def FileInfo.ifRangeValidator (info : FileInfo) : Option String :=
  match info.etag with
  | some tag => if isWeak tag then info.lastModified else some tag
  | none => info.lastModified

/-- A header is absent here when it is missing or is not visible ASCII.
The body is all that the server sends before it closes the stream. -/
structure Response where
  status : Nat
  contentRange : Option String := none
  contentLength : Option String := none
  body : List UInt8 := []

def isSuccess (status : Nat) : Bool := 200 ≤ status && status < 300

/-- Digits are read as long as their value stays below 2^64. -/
def parseDigits (digits : List Char) : Option Nat :=
  if digits.isEmpty || !digits.all Char.isDigit then none
  else
    let value := digits.foldl (fun value digit => 10 * value + (digit.toNat - 48)) 0
    if value < 2 ^ 64 then some value else none

/-- This is `str::parse::<u64>`, which allows one plus sign. -/
def parseU64 : List Char → Option Nat
  | '+' :: digits => parseDigits digits
  | digits => parseDigits digits

/-- This is `rsplit('/').next()`: the text behind the last slash. -/
def afterLastSlash (text : List Char) : List Char :=
  (text.reverse.takeWhile (· ≠ '/')).reverse

/-- The total behind the slash of `Content-Range`. -/
def Response.rangeTotal (response : Response) : Option Nat :=
  response.contentRange.bind fun value => parseU64 (afterLastSlash value.toList)

def Response.lengthTotal (response : Response) : Option Nat :=
  response.contentLength.bind fun value => parseU64 value.toList

theorem parseDigits_lt {digits : List Char} {value : Nat} (parsed : parseDigits digits = some value) :
    value < 2 ^ 64 := by
  unfold parseDigits at parsed
  dsimp only at parsed
  split_ifs at parsed with malformed fits
  exact Option.some.inj parsed ▸ fits

theorem parseU64_lt {text : List Char} {value : Nat} (parsed : parseU64 text = some value) :
    value < 2 ^ 64 := by
  unfold parseU64 at parsed
  split at parsed <;> exact parseDigits_lt parsed

theorem Response.rangeTotal_lt {response : Response} {total : Nat}
    (given : response.rangeTotal = some total) : total < 2 ^ 64 := by
  obtain ⟨_, _, parsed⟩ := Option.bind_eq_some_iff.mp given
  exact parseU64_lt parsed

theorem Response.lengthTotal_lt {response : Response} {total : Nat}
    (given : response.lengthTotal = some total) : total < 2 ^ 64 := by
  obtain ⟨_, _, parsed⟩ := Option.bind_eq_some_iff.mp given
  exact parseU64_lt parsed

end FastDownloader
