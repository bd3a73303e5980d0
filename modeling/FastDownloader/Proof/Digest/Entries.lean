/-
This file shows that the nested scans of the digest headers find one maximum over all entries.
-/

import FastDownloader.Foundation.Strongest
import FastDownloader.Model.Digest

namespace FastDownloader.Digest

open Foundation Filename

/-- The entries of the lists name their algorithm, and a Content-MD5 is one entry. -/
inductive Entry where
  | listed (text : List Char)
  | contentMd5 (text : List Char)
  deriving DecidableEq, Repr

def listEntries (header : Option (List Char)) : List Entry :=
  header.toList.flatMap fun value => (value.splitOn ',').map .listed

/-- The entries stand in the order of the headers. -/
def advertised (reprDigest digest contentMd5 : Option (List Char)) : List Entry :=
  listEntries reprDigest ++ listEntries digest ++ contentMd5.toList.map .contentMd5

def names : Checksum → List (List Char)
  | .sha512 _ => ["sha-512".toList, "sha512".toList]
  | .sha256 _ => ["sha-256".toList, "sha256".toList]
  | .md5 _ => ["md5".toList]

/-- This is the name in lower case and the value as it stands. -/
def Entry.field : Entry → Option (List Char × List Char)
  | .listed text =>
      (splitOnce '=' (Filename.trim text)).map fun (name, value) => (toAsciiLowercase (Filename.trim name), value)
  | .contentMd5 text => some ("md5".toList, text)

/-- An entry is kept when it names the algorithm and its stripped value is the Base64 of the digest. -/
def Entry.Keeps (strip : Entry → List Char → List Char) (entry : Entry) (checksum : Checksum) : Prop :=
  ∃ name value, entry.field = some (name, value) ∧ name ∈ names checksum ∧
    strip entry value = Base64.encode checksum.bytes

/-- In the lists blanks are stripped, then colons, then blanks. A Content-MD5 has no colons to strip. -/
def Entry.strip : Entry → List Char → List Char
  | .listed _, value => Filename.trim (trimMatches ':' (Filename.trim value))
  | .contentMd5 _, value => Filename.trim value

def Entry.parse (base64 : Base64Standard) : Entry → Option Checksum
  | .listed text => parseEntry base64 text
  | .contentMd5 text => parseContentMd5 base64 text

/-- The rank that both scans remember is that of the best digest. -/
def bestOf (values : List Checksum) : Best :=
  ⟨values.argmax rank, (values.argmax rank).elim 0 rank⟩

variable {base64 : Base64Standard} {checksum : Checksum} {reprDigest digest contentMd5 : Option (List Char)}

theorem decodeN_eq_some {n : Nat} {text : List Char} {bytes : Vector UInt8 n} :
    decodeN base64 n text = some bytes ↔ text = Base64.encode bytes.toList := by
  rw [← base64.decode_eq_some, decodeN, Option.bind_eq_some_iff]
  constructor
  · rintro ⟨raw, decoded, fits⟩
    split_ifs at fits with size
    rw [decoded, ← Option.some.inj fits]
    rfl
  · intro decoded
    refine ⟨bytes.toList, decoded, ?_⟩
    rw [dif_pos bytes.length_toList]
    rfl

theorem map_decodeN_eq_some {n : Nat} {text : List Char} {bytes : Vector UInt8 n} {wrap : Vector UInt8 n → Checksum}
    (injective : Function.Injective wrap) :
    (decodeN base64 n text).map wrap = some (wrap bytes) ↔ text = Base64.encode bytes.toList := by
  rw [Option.map_eq_some_iff]
  simp only [injective.eq_iff, exists_eq_right, decodeN_eq_some]

/-- The arm that the name selects decodes the value for its own algorithm. -/
theorem decodeNamed_eq_some {name value : List Char} :
    decodeNamed base64 name value = some checksum ↔
      name ∈ names checksum ∧ value = Base64.encode checksum.bytes := by
  unfold decodeNamed
  have apart : ∀ other ∈ ["sha-512".toList, "sha512".toList],
      other ∉ ["sha-256".toList, "sha256".toList] ∧ other ∉ ["md5".toList] := by decide
  have apart256 : ∀ other ∈ ["sha-256".toList, "sha256".toList], other ∉ ["md5".toList] := by decide
  by_cases first : name ∈ ["sha-512".toList, "sha512".toList]
  · rw [if_pos (List.mem_pair.mp first)]
    cases checksum with
    | sha512 bytes =>
        rw [map_decodeN_eq_some fun _ _ => Checksum.sha512.inj]
        exact (and_iff_right first).symm
    | sha256 bytes => exact iff_of_false (by simp) fun both => (apart name first).1 both.1
    | md5 bytes => exact iff_of_false (by simp) fun both => (apart name first).2 both.1
  rw [if_neg (mt List.mem_pair.mpr first)]
  by_cases second : name ∈ ["sha-256".toList, "sha256".toList]
  · rw [if_pos (List.mem_pair.mp second)]
    cases checksum with
    | sha512 bytes => exact iff_of_false (by simp) fun both => first both.1
    | sha256 bytes =>
        rw [map_decodeN_eq_some fun _ _ => Checksum.sha256.inj]
        exact (and_iff_right second).symm
    | md5 bytes => exact iff_of_false (by simp) fun both => apart256 name second both.1
  rw [if_neg (mt List.mem_pair.mpr second)]
  by_cases third : name ∈ ["md5".toList]
  · rw [if_pos (List.mem_singleton.mp third)]
    cases checksum with
    | sha512 bytes => exact iff_of_false (by simp) fun both => first both.1
    | sha256 bytes => exact iff_of_false (by simp) fun both => second both.1
    | md5 bytes =>
        rw [map_decodeN_eq_some fun _ _ => Checksum.md5.inj]
        exact (and_iff_right third).symm
  rw [if_neg (mt List.mem_singleton.mpr third)]
  cases checksum with
  | sha512 bytes => exact iff_of_false (by simp) fun both => first both.1
  | sha256 bytes => exact iff_of_false (by simp) fun both => second both.1
  | md5 bytes => exact iff_of_false (by simp) fun both => third both.1

/-- The code keeps exactly the entries that name an algorithm and carry its Base64. -/
theorem Entry.parse_eq_some {entry : Entry} : entry.parse base64 = some checksum ↔ entry.Keeps Entry.strip checksum := by
  have parsed : entry.parse base64 = entry.field.bind fun (name, value) =>
      decodeNamed base64 name (entry.strip value) := by
    cases entry with
    | listed text =>
        rw [Entry.parse, parseEntry, Entry.field, Option.bind_map]
        rfl
    | contentMd5 text => rfl
  rw [parsed, Option.bind_eq_some_iff]
  constructor
  · rintro ⟨⟨name, value⟩, read, decoded⟩
    exact ⟨name, value, read, decodeNamed_eq_some.mp decoded⟩
  · rintro ⟨name, value, read, kept⟩
    exact ⟨(name, value), read, decodeNamed_eq_some.mpr kept⟩

theorem rank_pos (checksum : Checksum) : 0 < rank checksum := by
  cases checksum <;> exact Nat.succ_pos _

/-- One digest more is the maximum of one entry more. -/
theorem consider_bestOf (values : List Checksum) (candidate : Option Checksum) :
    consider (bestOf values) candidate = bestOf (values ++ candidate.toList) := by
  cases candidate with
  | none =>
      rw [Option.toList_none, List.append_nil]
      rfl
  | some checksum =>
      rw [Option.toList_some, consider, bestOf, bestOf, List.argmax_concat]
      cases values.argmax rank with
      | none => exact if_pos (rank_pos checksum)
      | some best =>
          by_cases stronger : rank best < rank checksum
          · simp [stronger]
          · simp [stronger]

theorem foldl_consider {γ : Type} (parse : γ → Option Checksum) (entries : List γ) (values : List Checksum) :
    entries.foldl (fun state entry => consider state (parse entry)) (bestOf values) =
      bestOf (values ++ entries.filterMap parse) := by
  induction entries generalizing values with
  | nil => rw [List.filterMap_nil, List.append_nil, List.foldl_nil]
  | cons entry entries ih =>
      rw [List.foldl_cons, consider_bestOf, ih, List.append_assoc]
      cases parsed : parse entry with
      | none => rw [List.filterMap_cons_none parsed, Option.toList_none, List.nil_append]
      | some checksum => rw [List.filterMap_cons_some parsed, Option.toList_some, List.singleton_append]

/-- The scan of one list finds the maximum of its entries. -/
theorem parseDigestList_eq (value : List Char) :
    parseDigestList base64 value = ((value.splitOn ',').filterMap (parseEntry base64)).argmax rank := by
  have scanned := foldl_consider (parseEntry base64) (value.splitOn ',') []
  exact congrArg Best.best scanned

/-- Considering the winner of some entries is the same as considering each of them. -/
theorem considerHeader_bestOf {parse : List Char → Option Checksum} {kept : List Char → List Checksum}
    (scanned : ∀ value, parse value = (kept value).argmax rank) (values : List Checksum)
    (header : Option (List Char)) :
    considerHeader (bestOf values) parse header = bestOf (values ++ header.toList.flatMap kept) := by
  cases header with
  | none => exact congrArg bestOf (List.append_nil values).symm
  | some value =>
      rw [considerHeader, consider_bestOf, scanned, Option.toList_some, List.flatMap_singleton]
      rw [bestOf, argmax_append, bestOf]

theorem argmax_toList (candidate : Option Checksum) : candidate.toList.argmax rank = candidate := by
  cases candidate <;> rfl

theorem filterMap_advertised :
    (advertised reprDigest digest contentMd5).filterMap (Entry.parse base64) =
      reprDigest.toList.flatMap (fun value => (value.splitOn ',').filterMap (parseEntry base64)) ++
        digest.toList.flatMap (fun value => (value.splitOn ',').filterMap (parseEntry base64)) ++
        contentMd5.toList.flatMap fun value => (parseContentMd5 base64 value).toList := by
  have list (header : Option (List Char)) : (listEntries header).filterMap (Entry.parse base64) =
      header.toList.flatMap fun value => (value.splitOn ',').filterMap (parseEntry base64) := by
    rw [listEntries, List.filterMap_flatMap]
    simp only [List.filterMap_map]
    rfl
  rw [advertised, List.filterMap_append, List.filterMap_append, list, list, List.filterMap_map]
  congr 1
  cases contentMd5 with
  | none => rfl
  | some value =>
      rw [Option.toList_some, List.flatMap_singleton]
      cases parsed : parseContentMd5 base64 value with
      | none => exact List.filterMap_cons_none parsed
      | some checksum => exact List.filterMap_cons_some parsed

/-- The nested scans find one maximum over the entries of all headers. -/
theorem digestFromParts_eq :
    digestFromParts base64 reprDigest digest contentMd5 =
      ((advertised reprDigest digest contentMd5).filterMap (Entry.parse base64)).argmax rank := by
  have start : ({} : Best) = bestOf [] := rfl
  rw [digestFromParts, start, considerHeader_bestOf parseDigestList_eq, considerHeader_bestOf parseDigestList_eq,
    considerHeader_bestOf fun value => (argmax_toList (parseContentMd5 base64 value)).symm, filterMap_advertised,
    List.nil_append]
  rfl

end FastDownloader.Digest
