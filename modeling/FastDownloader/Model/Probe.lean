/-
This file models `probe`, which asks for the headers of a resource and then for its first byte.
-/

import FastDownloader.Model.Filename
import FastDownloader.Model.Http

namespace FastDownloader

/-- The body of an answer is never read. The digest is the one that `digest_from_parts` makes of the headers. -/
structure ProbeResponse where
  url : String
  status : Nat
  contentLength : Option String := none
  contentRange : Option String := none
  acceptRanges : Option String := none
  etag : Option String := none
  lastModified : Option String := none
  digest : Option Checksum := none

def parseContentRangeTotal (value : List Char) : Option Nat :=
  let afterSlash := Filename.trim (afterLastSlash value)
  if afterSlash = ['*'] then none else parseU64 afterSlash

namespace ProbeResponse

def lengthTotal (response : ProbeResponse) : Option Nat :=
  response.contentLength.bind fun value => parseU64 value.toList

def rangeTotal (response : ProbeResponse) : Option Nat :=
  response.contentRange.bind fun value => parseContentRangeTotal value.toList

/-- Any other value of the header says nothing. -/
def supportsRange (response : ProbeResponse) : Option Bool :=
  match response.acceptRanges.map fun value => value.toList.map Char.toLower with
  | some ['b', 'y', 't', 'e', 's'] => some true
  | some ['n', 'o', 'n', 'e'] => some false
  | _ => none

theorem lengthTotal_lt {response : ProbeResponse} {total : Nat} (given : response.lengthTotal = some total) :
    total < 2 ^ 64 := by
  obtain ⟨_, _, parsed⟩ := Option.bind_eq_some_iff.mp given
  exact parseU64_lt parsed

theorem rangeTotal_lt {response : ProbeResponse} {total : Nat} (given : response.rangeTotal = some total) :
    total < 2 ^ 64 := by
  obtain ⟨_, _, parsed⟩ := Option.bind_eq_some_iff.mp given
  unfold parseContentRangeTotal at parsed
  dsimp only at parsed
  split_ifs at parsed
  exact parseU64_lt parsed

end ProbeResponse

/-- An answer 206 tells the size by its range. Another success tells it only where `HEAD` did not. -/
def probeSize (head : Option ProbeResponse) (response : ProbeResponse) : Option Nat :=
  let size := head.bind ProbeResponse.lengthTotal
  if response.status = 206 then response.rangeTotal.or size else size.or response.lengthTotal

theorem probeSize_lt {head : Option ProbeResponse} {response : ProbeResponse} :
    ∀ bytes ∈ probeSize head response, bytes < 2 ^ 64 := by
  intro bytes given
  have before : ∀ told ∈ head.bind ProbeResponse.lengthTotal, told < 2 ^ 64 := by
    intro told same
    obtain ⟨_, _, length⟩ := Option.bind_eq_some_iff.mp same
    exact ProbeResponse.lengthTotal_lt length
  unfold probeSize at given
  dsimp only at given
  split_ifs at given
  · rcases Option.or_eq_some_iff.mp given with told | ⟨-, told⟩
    · exact ProbeResponse.rangeTotal_lt told
    · exact before bytes told
  · rcases Option.or_eq_some_iff.mp given with told | ⟨-, told⟩
    · exact before bytes told
    · exact ProbeResponse.lengthTotal_lt told

/-- `HEAD` told everything. -/
def headInfo (head : ProbeResponse) : FileInfo where
  finalUrl := head.url
  size := head.lengthTotal
  sizeFits := fun _ => ProbeResponse.lengthTotal_lt
  supportsRange := true
  etag := head.etag
  lastModified := head.lastModified
  digest := head.digest

/-- The request for the first byte adds what `HEAD` did not tell. -/
def rangeInfo (head : Option ProbeResponse) (response : ProbeResponse) : FileInfo where
  finalUrl := response.url
  size := probeSize head response
  sizeFits := probeSize_lt
  supportsRange := response.status = 206 || head.bind ProbeResponse.supportsRange = some true
  etag := (head.bind ProbeResponse.etag).or response.etag
  lastModified := (head.bind ProbeResponse.lastModified).or response.lastModified
  digest := head.bind ProbeResponse.digest

def rangeProbe (head : Option ProbeResponse) : Option ProbeResponse → Except Error FileInfo
  | none => .error .http
  | some response =>
      if !isSuccess response.status ∧ response.status ≠ 206 then .error (.status response.status)
      else .ok (rangeInfo head response)

/-- The arguments are the answers to `HEAD` and to `GET` with `Range: bytes=0-0`. A request without an answer has
failed, and an answer to `HEAD` counts only when it is a success. -/
def probe (head range : Option ProbeResponse) : Except Error FileInfo :=
  match head.filter fun response => isSuccess response.status with
  | some response =>
      if response.supportsRange = some true ∧ response.lengthTotal.isSome then .ok (headInfo response)
      else rangeProbe (some response) range
  | none => rangeProbe none range

end FastDownloader
