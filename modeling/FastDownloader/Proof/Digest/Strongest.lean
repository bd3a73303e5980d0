/-
This file shows that the strongest usable digest is picked and that other entries make no difference.
-/

import FastDownloader.Proof.Digest.Entries
import FastDownloader.Proof.Filename.Extended

namespace FastDownloader.Digest

open Foundation Filename

/-- The first of the strongest kept entries is returned, and nothing is returned when no entry is kept. -/
def PicksStrongest (strip : Entry → List Char → List Char) (base64 : Base64Standard)
    (reprDigest digest contentMd5 : Option (List Char)) : Prop :=
  (∀ checksum, digestFromParts base64 reprDigest digest contentMd5 = some checksum ↔
    ∃ front entry back, advertised reprDigest digest contentMd5 = front ++ entry :: back ∧
      entry.Keeps strip checksum ∧
      (∀ other ∈ front, ∀ weaker, other.Keeps strip weaker → rank weaker < rank checksum) ∧
      ∀ other ∈ back, ∀ weaker, other.Keeps strip weaker → rank weaker ≤ rank checksum) ∧
  (digestFromParts base64 reprDigest digest contentMd5 = none ↔
    ∀ entry ∈ advertised reprDigest digest contentMd5, ∀ checksum, ¬ entry.Keeps strip checksum)

/-- The texts are the entries of one header. A header without an entry is missing. -/
def header : List (List Char) → Option (List Char)
  | [] => none
  | texts => some ([','].intercalate texts)

/-- An entry that is not kept may be put anywhere into the headers. -/
def IgnoresOthers (strip : Entry → List Char → List Char) (base64 : Base64Standard)
    (reprDigest digest contentMd5 : Option (List Char)) : Prop :=
  (∀ front back text, ',' ∉ text → (∀ checksum, ¬ (Entry.listed text).Keeps strip checksum) →
    digestFromParts base64 (header (front ++ text :: back)) digest contentMd5 =
      digestFromParts base64 (header (front ++ back)) digest contentMd5 ∧
    digestFromParts base64 reprDigest (header (front ++ text :: back)) contentMd5 =
      digestFromParts base64 reprDigest (header (front ++ back)) contentMd5) ∧
  ∀ text, (∀ checksum, ¬ (Entry.contentMd5 text).Keeps strip checksum) →
    digestFromParts base64 reprDigest digest (some text) = digestFromParts base64 reprDigest digest none

/-- An entry of a list renders a digest under one of its names, with or without colons. -/
structure Rendering (checksum : Checksum) where
  before : List Char
  name : List Char
  colons : Bool
  behind : List Char
  blank : ∀ char ∈ before ++ behind, isWhitespace char = true
  known : toAsciiLowercase name ∈ names checksum

def Rendering.mark {checksum : Checksum} (rendering : Rendering checksum) : List Char :=
  if rendering.colons then [':'] else []

def Rendering.value {checksum : Checksum} (rendering : Rendering checksum) : List Char :=
  rendering.mark ++ Base64.encode checksum.bytes ++ rendering.mark

def Rendering.text {checksum : Checksum} (rendering : Rendering checksum) : List Char :=
  rendering.before ++ (rendering.name ++ '=' :: rendering.value) ++ rendering.behind

/-- A rendered digest among weaker entries is returned. -/
def ReturnsRendered (strip : Entry → List Char → List Char) (base64 : Base64Standard)
    (reprDigest digest contentMd5 : Option (List Char)) : Prop :=
  ∀ (checksum : Checksum) (rendering : Rendering checksum) (front back : List (List Char)),
    ((∀ other ∈ advertised (header (front ++ back)) digest contentMd5, ∀ weaker, other.Keeps strip weaker →
        rank weaker < rank checksum) →
      digestFromParts base64 (header (front ++ rendering.text :: back)) digest contentMd5 = some checksum) ∧
    ((∀ other ∈ advertised reprDigest (header (front ++ back)) contentMd5, ∀ weaker, other.Keeps strip weaker →
        rank weaker < rank checksum) →
      digestFromParts base64 reprDigest (header (front ++ rendering.text :: back)) contentMd5 = some checksum)

variable {base64 : Base64Standard} {checksum : Checksum} {reprDigest digest contentMd5 : Option (List Char)}

theorem picks_strongest (base64 : Base64Standard) (reprDigest digest contentMd5 : Option (List Char)) :
    PicksStrongest Entry.strip base64 reprDigest digest contentMd5 := by
  constructor
  · intro checksum
    simp only [digestFromParts_eq, argmax_filterMap_eq_some, Entry.parse_eq_some]
  · rw [digestFromParts_eq, List.argmax_eq_none, List.filterMap_eq_nil_iff]
    simp only [Option.eq_none_iff_forall_ne_some, ne_eq, Entry.parse_eq_some]

/-- A header that is put together from texts holds the entries of all of them. -/
theorem listEntries_header (texts : List (List Char)) :
    listEntries (header texts) = texts.flatMap fun text => listEntries (some text) := by
  have one (text : List Char) : listEntries (some text) = (text.splitOn ',').map .listed := by
    rw [listEntries, Option.toList_some, List.flatMap_singleton]
  cases texts with
  | nil => rfl
  | cons text texts =>
      change listEntries (some ([','].intercalate (text :: texts))) = _
      rw [one]
      induction texts generalizing text with
      | nil => rw [List.intercalate_singleton, List.flatMap_singleton, one]
      | cons next texts ih =>
          rw [List.flatMap_cons, ← ih next, List.intercalate_cons_cons, List.append_assoc, List.singleton_append,
            List.splitOn_append_cons_self, List.map_append, one]

theorem listEntries_plain {text : List Char} (plain : ',' ∉ text) : listEntries (some text) = [.listed text] := by
  rw [listEntries, Option.toList_some, List.flatMap_singleton, List.splitOn_eq_singleton plain, List.map_singleton]

theorem listEntries_insert {text : List Char} (plain : ',' ∉ text) (front back : List (List Char)) :
    listEntries (header (front ++ text :: back)) =
      listEntries (header front) ++ .listed text :: listEntries (header back) := by
  rw [listEntries_header, listEntries_header, listEntries_header, List.flatMap_append, List.flatMap_cons,
    listEntries_plain plain, List.singleton_append]

theorem listEntries_append (front back : List (List Char)) :
    listEntries (header (front ++ back)) = listEntries (header front) ++ listEntries (header back) := by
  rw [listEntries_header, listEntries_header, listEntries_header, List.flatMap_append]

/-- Blanks, commas and equals signs have no lower case of their own. -/
theorem toLower_of_blank {char : Char} (blank : isWhitespace char = true ∨ char = ',' ∨ char = '=') :
    char.toLower = char := by
  unfold Char.toLower
  apply dif_neg
  rintro ⟨low, high⟩
  have bounds : 65 ≤ char.toNat ∧ char.toNat ≤ 90 := ⟨low, high⟩
  rcases blank with white | rfl | rfl
  · simp only [isWhitespace, Bool.or_eq_true, Bool.and_eq_true, decide_eq_true_eq] at white
    omega
  · exact absurd bounds.1 (by decide)
  · exact absurd bounds.1 (by decide)

/-- No name of an algorithm has a character at which a list or an entry is split or stripped. -/
theorem names_plain {name : List Char} (known : toAsciiLowercase name ∈ names checksum) :
    ∀ char ∈ name, isWhitespace char = false ∧ char ≠ ',' ∧ char ≠ '=' := by
  have all : ∀ other ∈ names checksum, ∀ char ∈ other, isWhitespace char = false ∧ char ≠ ',' ∧ char ≠ '=' := by
    cases checksum with
    | sha512 bytes =>
        change ∀ other ∈ ["sha-512".toList, "sha512".toList], _
        decide
    | sha256 bytes =>
        change ∀ other ∈ ["sha-256".toList, "sha256".toList], _
        decide
    | md5 bytes =>
        change ∀ other ∈ ["md5".toList], _
        decide
  intro char member
  have lowered := all _ known char.toLower (List.mem_map_of_mem member)
  by_cases blank : isWhitespace char = true ∨ char = ',' ∨ char = '='
  · rwa [toLower_of_blank blank] at lowered
  · obtain ⟨unblank, separate⟩ := not_or.mp blank
    exact ⟨Bool.eq_false_of_not_eq_true unblank, not_or.mp separate⟩

/-- No digit of a digest is stripped, and none separates entries. -/
theorem encode_plain (bytes : List UInt8) :
    ∀ char ∈ Base64.encode bytes, isWhitespace char = false ∧ char ≠ ',' ∧ char ≠ ':' := by
  have all : ∀ char ∈ '=' :: Base64.alphabet, isWhitespace char = false ∧ char ≠ ',' ∧ char ≠ ':' := by
    decide +kernel
  intro char member
  exact all char (Base64.forall_mem_encode bytes char member)

namespace Rendering

variable (rendering : Rendering checksum)

theorem mark_colon : ∀ char ∈ rendering.mark, char = ':' := by
  unfold mark
  split_ifs <;> simp

theorem value_plain : ∀ char ∈ rendering.value, isWhitespace char = false ∧ char ≠ ',' := by
  have marked : ∀ char ∈ rendering.mark, isWhitespace char = false ∧ char ≠ ',' := by
    intro char member
    rw [rendering.mark_colon char member]
    decide
  unfold value
  simp only [List.forall_mem_append]
  refine ⟨⟨marked, ?_⟩, marked⟩
  intro char member
  obtain ⟨unblank, separate, -⟩ := encode_plain checksum.bytes char member
  exact ⟨unblank, separate⟩

theorem core_plain : ∀ char ∈ rendering.name ++ '=' :: rendering.value, isWhitespace char = false ∧ char ≠ ',' := by
  simp only [List.forall_mem_append, List.forall_mem_cons]
  refine ⟨?_, by decide, rendering.value_plain⟩
  intro char member
  obtain ⟨unblank, separate, -⟩ := names_plain rendering.known char member
  exact ⟨unblank, separate⟩

theorem text_plain : ',' ∉ rendering.text := by
  have outside : ',' ∉ rendering.before ++ rendering.behind := by
    intro member
    exact absurd (rendering.blank ',' member) (by decide)
  rw [List.mem_append, not_or] at outside
  unfold text
  rw [List.mem_append, List.mem_append]
  rintro ((front | core) | back)
  · exact outside.1 front
  · exact (rendering.core_plain ',' core).2 rfl
  · exact outside.2 back

theorem trim_text : Filename.trim rendering.text = rendering.name ++ '=' :: rendering.value := by
  have blank := rendering.blank
  simp only [List.forall_mem_append] at blank
  exact strip_around blank.1 (fun char member => (rendering.core_plain char member).1) blank.2

/-- Stripping a rendered value leaves the digits. -/
theorem strip_value :
    Filename.trim (trimMatches ':' (Filename.trim rendering.value)) = Base64.encode checksum.bytes := by
  have unblanked : Filename.trim rendering.value = rendering.value :=
    strip_self fun char member => (rendering.value_plain char member).1
  have unmarked : trimMatches ':' rendering.value = Base64.encode checksum.bytes := by
    apply strip_around
    · intro char member
      exact decide_eq_true (rendering.mark_colon char member)
    · intro char member
      exact decide_eq_false (encode_plain checksum.bytes char member).2.2
    · intro char member
      exact decide_eq_true (rendering.mark_colon char member)
  rw [unblanked, unmarked]
  exact strip_self fun char member => (encode_plain checksum.bytes char member).1

theorem keeps : (Entry.listed rendering.text).Keeps Entry.strip checksum := by
  have unmarked : '=' ∉ rendering.name := by
    intro member
    exact (names_plain rendering.known '=' member).2.2 rfl
  have name : Filename.trim rendering.name = rendering.name :=
    strip_self fun char member => (names_plain rendering.known char member).1
  refine ⟨toAsciiLowercase rendering.name, rendering.value, ?_, rendering.known, rendering.strip_value⟩
  rw [Entry.field, rendering.trim_text, splitOnce_append unmarked, Option.map_some]
  change some (toAsciiLowercase (Filename.trim rendering.name), rendering.value) = _
  rw [name]

end Rendering

theorem Entry.parse_eq_none (base64 : Base64Standard) {entry : Entry}
    (unkept : ∀ checksum, ¬ entry.Keeps Entry.strip checksum) :
    entry.parse base64 = none := by
  apply Option.eq_none_iff_forall_ne_some.mpr
  intro checksum parsed
  exact unkept checksum (Entry.parse_eq_some.mp parsed)

theorem ignores_others (base64 : Base64Standard) (reprDigest digest contentMd5 : Option (List Char)) :
    IgnoresOthers Entry.strip base64 reprDigest digest contentMd5 := by
  constructor
  · intro front back text plain unkept
    have skipped := Entry.parse_eq_none base64 unkept
    have same : (listEntries (header (front ++ text :: back))).filterMap (Entry.parse base64) =
        (listEntries (header (front ++ back))).filterMap (Entry.parse base64) := by
      rw [listEntries_insert plain, listEntries_append, List.filterMap_append, List.filterMap_append,
        List.filterMap_cons_none skipped]
    constructor
    · simp only [digestFromParts_eq, advertised, List.filterMap_append, same]
    · simp only [digestFromParts_eq, advertised, List.filterMap_append, same]
  · intro text unkept
    have skipped := Entry.parse_eq_none base64 unkept
    simp only [digestFromParts_eq, advertised, List.filterMap_append, Option.toList_some, Option.toList_none,
      List.map_singleton, List.map_nil, List.filterMap_cons_none skipped]

/-- A file that agrees with all kept entries passes the verification against the picked one. -/
theorem picked_verifies (hasher : Hasher) (contents : List UInt8)
    (genuine : ∀ entry ∈ advertised reprDigest digest contentMd5, ∀ found, entry.Keeps Entry.strip found →
      hasher.computeBlocking contents found = found)
    (picked : digestFromParts base64 reprDigest digest contentMd5 = some checksum) :
    hasher.verifyFile (some contents) checksum = .ok () := by
  obtain ⟨front, entry, back, shape, kept, -⟩ :=
    ((picks_strongest base64 reprDigest digest contentMd5).1 checksum).mp picked
  have member : entry ∈ advertised reprDigest digest contentMd5 := by
    rw [shape]
    exact List.mem_append_right front List.mem_cons_self
  exact if_pos (genuine entry member checksum kept)

/-- A kept entry wins when every other one is weaker. -/
theorem returned_of_weaker {entry : Entry} {front back : List Entry}
    (shape : advertised reprDigest digest contentMd5 = front ++ entry :: back)
    (kept : entry.Keeps Entry.strip checksum)
    (weaker : ∀ other ∈ front ++ back, ∀ found, other.Keeps Entry.strip found → rank found < rank checksum) :
    digestFromParts base64 reprDigest digest contentMd5 = some checksum := by
  simp only [List.forall_mem_append] at weaker
  apply ((picks_strongest base64 reprDigest digest contentMd5).1 checksum).mpr
  refine ⟨front, entry, back, shape, kept, weaker.1, ?_⟩
  intro other member found keeps
  exact (weaker.2 other member found keeps).le

theorem returns_rendered (base64 : Base64Standard) (reprDigest digest contentMd5 : Option (List Char)) :
    ReturnsRendered Entry.strip base64 reprDigest digest contentMd5 := by
  intro checksum rendering front back
  have inserted := listEntries_insert rendering.text_plain front back
  constructor
  · intro weaker
    have shape : advertised (header (front ++ rendering.text :: back)) digest contentMd5 =
        listEntries (header front) ++ .listed rendering.text ::
          (listEntries (header back) ++ listEntries digest ++ contentMd5.toList.map .contentMd5) := by
      rw [advertised, inserted]
      simp only [List.append_assoc, List.cons_append]
    apply returned_of_weaker shape rendering.keeps
    rw [advertised, listEntries_append] at weaker
    simpa only [List.append_assoc] using weaker
  · intro weaker
    have shape : advertised reprDigest (header (front ++ rendering.text :: back)) contentMd5 =
        (listEntries reprDigest ++ listEntries (header front)) ++ .listed rendering.text ::
          (listEntries (header back) ++ contentMd5.toList.map .contentMd5) := by
      rw [advertised, inserted]
      simp only [List.append_assoc, List.cons_append]
    apply returned_of_weaker shape rendering.keeps
    rw [advertised, listEntries_append] at weaker
    simpa only [List.append_assoc] using weaker

/-- The strongest usable digest of the three headers is returned and nothing else. -/
theorem strongest_picked (base64 : Base64Standard) (reprDigest digest contentMd5 : Option (List Char)) :
    PicksStrongest Entry.strip base64 reprDigest digest contentMd5 ∧
      IgnoresOthers Entry.strip base64 reprDigest digest contentMd5 ∧
      ReturnsRendered Entry.strip base64 reprDigest digest contentMd5 :=
  ⟨picks_strongest base64 reprDigest digest contentMd5, ignores_others base64 reprDigest digest contentMd5,
    returns_rendered base64 reprDigest digest contentMd5⟩

/-- The concrete decoder has the law of the package. -/
def base64Crate : Base64Standard where
  decode := Base64.decode
  decode_eq_some := fun _ _ => Base64.decode_eq_some

def nines : Checksum := .md5 (Vector.replicate 16 9)

def threes : Checksum := .sha256 (Vector.replicate 32 3)

def threesRendering : Rendering threes where
  before := [' ']
  name := "SHA-256".toList
  colons := true
  behind := []
  blank := by decide
  known := by decide

/-- A weaker digest before the rendered one loses, and a checksum of another kind makes no difference. -/
theorem strongest_picked_beside :
    digestFromParts base64Crate (header ["md5=CQkJCQkJCQkJCQkJCQkJCQ==".toList, threesRendering.text]) none none =
        some threes ∧
      digestFromParts base64Crate (header ["unixsum=12345".toList, threesRendering.text]) none none =
        digestFromParts base64Crate (header [threesRendering.text]) none none := by
  obtain ⟨-, ignores, returns⟩ := strongest_picked base64Crate none none none
  constructor
  · refine (returns threes threesRendering ["md5=CQkJCQkJCQkJCQkJCQkJCQ==".toList] []).1 ?_
    intro other member found kept
    have only : advertised (header ["md5=CQkJCQkJCQkJCQkJCQkJCQ==".toList]) none none =
        [.listed "md5=CQkJCQkJCQkJCQkJCQkJCQ==".toList] := by decide
    obtain rfl := List.mem_singleton.mp (only ▸ member)
    have parsed : Entry.parse base64Crate (.listed "md5=CQkJCQkJCQkJCQkJCQkJCQ==".toList) = some nines := by decide
    obtain rfl := Option.some.inj (parsed.symm.trans (Entry.parse_eq_some.mpr kept))
    decide
  · refine (ignores.1 [] [threesRendering.text] "unixsum=12345".toList (by decide) ?_).1
    intro found kept
    have parsed : Entry.parse base64Crate (.listed "unixsum=12345".toList) = none := by decide
    exact absurd (parsed.symm.trans (Entry.parse_eq_some.mpr kept)) (Option.some_ne_none found).symm

/-- This strips all blanks and colons around a value, in any order. -/
def stripBlanksAndColons (value : List Char) : List Char :=
  (value.dropWhile fun char => isWhitespace char || char = ':').rdropWhile fun char => isWhitespace char || char = ':'

/-- A Content-MD5 in colons is not kept, and neither is an entry with a blank between two colons. -/
theorem not_strongest_picked :
    ¬ PicksStrongest (fun _ => stripBlanksAndColons) base64Crate none none
        (some ":CQkJCQkJCQkJCQkJCQkJCQ==:".toList) ∧
      ¬ PicksStrongest (fun _ => stripBlanksAndColons) base64Crate (some "md5=: :CQkJCQkJCQkJCQkJCQkJCQ==".toList)
        none none := by
  constructor
  · rintro ⟨-, empty⟩
    have nothing : digestFromParts base64Crate none none (some ":CQkJCQkJCQkJCQkJCQkJCQ==:".toList) = none := by decide
    apply empty.mp nothing (.contentMd5 ":CQkJCQkJCQkJCQkJCQkJCQ==:".toList) List.mem_cons_self nines
    exact ⟨_, _, rfl, List.mem_cons_self, by decide⟩
  · rintro ⟨-, empty⟩
    have nothing : digestFromParts base64Crate (some "md5=: :CQkJCQkJCQkJCQkJCQkJCQ==".toList) none none = none := by
      decide
    apply empty.mp nothing (.listed "md5=: :CQkJCQkJCQkJCQkJCQkJCQ==".toList) (by decide) nines
    exact ⟨"md5".toList, ": :CQkJCQkJCQkJCQkJCQkJCQ==".toList, by decide, List.mem_cons_self, by decide⟩

end FastDownloader.Digest
