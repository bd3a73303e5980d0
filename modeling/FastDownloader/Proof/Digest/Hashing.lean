/-
This file shows that a file hashed piece by piece is checked as if it were hashed whole.
-/

import FastDownloader.Model.Hashing
import FastDownloader.Proof.Digest.Hex

namespace FastDownloader

variable {n : Nat}

/-- The crate computes this function of the pieces in a row. -/
def Digester.Computes (digester : Digester n) (hash : List UInt8 → Vector UInt8 n) : Prop :=
  ∀ pieces : List (List UInt8), digester.finalize (pieces.foldl digester.update digester.new) =
    hash pieces.flatten

/-- Each crate computes its function. -/
structure Digesters.Computes (digesters : Digesters) (hasher : Hasher) : Prop where
  md5 : digesters.md5.Computes hasher.md5
  sha256 : digesters.sha256.Computes hasher.sha256
  sha512 : digesters.sha512.Computes hasher.sha512

theorem Reading.append_drop_piece (count : Nat) (rest : List UInt8) :
    Reading.piece count rest ++ rest.drop (Reading.piece count rest).length = rest := by
  simp only [Reading.piece, List.length_take]
  rcases Nat.le_total (min (max count 1) bufSize) rest.length with inside | beyond
  · rw [Nat.min_eq_left inside, List.take_append_drop]
  · rw [Nat.min_eq_right beyond, List.take_of_length_le beyond, List.drop_length, List.append_nil]

/-- A read gives nothing at the end alone. -/
theorem Reading.piece_length_eq_zero {count : Nat} {rest : List UInt8} :
    (Reading.piece count rest).length = 0 ↔ rest = [] := by
  have positive : 0 < min (max count 1) bufSize := Nat.lt_min.mpr ⟨by omega, by decide⟩
  rw [Reading.piece, List.length_take, ← List.length_eq_zero_iff]
  omega

/-- The loop has fed the pieces of what was left of the file, or a read has failed. -/
theorem hashLoop_cases {digester : Digester n} {state : digester.State} {rest : List UInt8}
    {readings : List Reading} {result : Except Error (Vector UInt8 n)}
    (done : hashLoop digester state rest readings = some result) :
    (∃ pieces : List (List UInt8), pieces.flatten = rest ∧
        result = .ok (digester.finalize (pieces.foldl digester.update state))) ∨
      (.fails ∈ readings ∧ result = .error .io) := by
  induction readings generalizing state rest with
  | nil => cases done
  | cons reading readings ih =>
      cases reading with
      | fails => exact Or.inr ⟨List.mem_cons_self, (Option.some.inj done).symm⟩
      | gives count =>
          simp only [hashLoop] at done
          split at done
          next ended =>
            refine Or.inl ⟨[], ?_, (Option.some.inj done).symm⟩
            rw [Reading.piece_length_eq_zero.mp ended, List.flatten_nil]
          next more =>
            rcases ih done with ⟨pieces, whole, same⟩ | ⟨failed, same⟩
            · refine Or.inl ⟨Reading.piece count rest :: pieces, ?_, same⟩
              rw [List.flatten_cons, whole, Reading.append_drop_piece]
            · exact Or.inr ⟨List.mem_cons_of_mem _ failed, same⟩

/-- Every read that is not the last one takes a byte, so the loop ends. -/
theorem hashLoop_isSome {digester : Digester n} {state : digester.State} {rest : List UInt8}
    {readings : List Reading} (enough : rest.length < readings.length) :
    (hashLoop digester state rest readings).isSome = true := by
  induction readings generalizing state rest with
  | nil => cases enough
  | cons reading readings ih =>
      cases reading with
      | fails => rfl
      | gives count =>
          simp only [hashLoop]
          split
          next => rfl
          next more =>
            have shorter : (rest.drop (Reading.piece count rest).length).length < readings.length := by
              rw [List.length_cons] at enough
              rw [List.length_drop]
              have fits : (Reading.piece count rest).length ≤ rest.length := by
                rw [Reading.piece, List.length_take]
                exact Nat.min_le_right _ _
              omega
            exact ih shorter

/-- The digest is that of the whole file unless a read has failed. -/
theorem hashWith_cases {digester : Digester n} {hash : List UInt8 → Vector UInt8 n}
    (computes : digester.Computes hash) {contents : List UInt8} {readings : List Reading}
    {result : Except Error (Vector UInt8 n)} (done : hashWith digester contents readings = some result) :
    result = .ok (hash contents) ∨ (.fails ∈ readings ∧ result = .error .io) := by
  rcases hashLoop_cases done with ⟨pieces, whole, same⟩ | failed
  · left
    rw [same, computes, whole]
  · exact Or.inr failed

/-- So is the checksum. -/
theorem Digesters.computeBlocking_cases {digesters : Digesters} {hasher : Hasher}
    (computes : digesters.Computes hasher) {contents : List UInt8} {readings : List Reading} {like : Checksum}
    {result : Except Error Checksum} (done : digesters.computeBlocking (some contents) readings like = some result) :
    result = .ok (hasher.computeBlocking contents like) ∨ (.fails ∈ readings ∧ result = .error .io) := by
  cases like with
  | md5 bytes =>
      obtain ⟨digest, hashed, rfl⟩ := Option.map_eq_some_iff.mp done
      rcases hashWith_cases computes.md5 hashed with rfl | ⟨failed, rfl⟩
      · exact Or.inl rfl
      · exact Or.inr ⟨failed, rfl⟩
  | sha256 bytes =>
      obtain ⟨digest, hashed, rfl⟩ := Option.map_eq_some_iff.mp done
      rcases hashWith_cases computes.sha256 hashed with rfl | ⟨failed, rfl⟩
      · exact Or.inl rfl
      · exact Or.inr ⟨failed, rfl⟩
  | sha512 bytes =>
      obtain ⟨digest, hashed, rfl⟩ := Option.map_eq_some_iff.mp done
      rcases hashWith_cases computes.sha512 hashed with rfl | ⟨failed, rfl⟩
      · exact Or.inl rfl
      · exact Or.inr ⟨failed, rfl⟩

theorem Digesters.computeBlocking_isSome {digesters : Digesters} {contents : List UInt8} {readings : List Reading}
    (enough : contents.length < readings.length) (like : Checksum) :
    (digesters.computeBlocking (some contents) readings like).isSome = true := by
  cases like <;>
    simp only [computeBlocking, hashWith, Option.isSome_map, hashLoop_isSome enough]

/-- Two digests of one algorithm show the same text only when they are the same. -/
theorem Hasher.display_injective {hasher : Hasher} {contents : List UInt8} {expected : Checksum}
    (same : (hasher.computeBlocking contents expected).display = expected.display) :
    hasher.computeBlocking contents expected = expected := by
  have algorithm : (hasher.computeBlocking contents expected).algorithm = expected.algorithm := by
    cases expected <;> rfl
  rw [Checksum.display, Checksum.display, algorithm] at same
  have texts := String.ofList_injective ((String.append_right_inj _).mp same)
  have bytes := hexText_injective texts
  cases expected with
  | md5 digest => exact congrArg Checksum.md5 (Vector.toList_inj.mp bytes)
  | sha256 digest => exact congrArg Checksum.sha256 (Vector.toList_inj.mp bytes)
  | sha512 digest => exact congrArg Checksum.sha512 (Vector.toList_inj.mp bytes)

/-- The answer is that of the whole file, except where a read or the join failed. -/
theorem Digesters.verifyFile_cases {digesters : Digesters} {hasher : Hasher}
    (computes : digesters.Computes hasher) {file : Option (List UInt8)} {readings : List Reading} {joined : Bool}
    {expected : Checksum} {result : Except Error Unit}
    (done : digesters.verifyFile file readings joined expected = some result) :
    result = hasher.verifyFile file expected ∨ (result = .error .io ∧ (joined = false ∨ .fails ∈ readings)) := by
  obtain ⟨computed, hashed, rfl⟩ := Option.map_eq_some_iff.mp done
  cases joined with
  | false => exact Or.inr ⟨rfl, Or.inl rfl⟩
  | true =>
      cases file with
      | none =>
          left
          rw [← Option.some.inj hashed]
          rfl
      | some contents =>
          rcases computeBlocking_cases computes hashed with rfl | ⟨failed, rfl⟩
          · exact Or.inl rfl
          · exact Or.inr ⟨rfl, Or.inr failed⟩

/-- A mismatch shows two different texts. -/
theorem Hasher.verifyFile_differs {hasher : Hasher} {file : Option (List UInt8)} {expected : Checksum}
    {want got : String} (mismatch : hasher.verifyFile file expected = .error (.checksumMismatch want got)) :
    want ≠ got := by
  cases file with
  | none => cases mismatch
  | some contents =>
      simp only [verifyFile] at mismatch
      split at mismatch
      next => cases mismatch
      next different =>
        cases mismatch
        intro same
        exact different (display_injective same.symm)

/-- However the reads cut the file, it is checked as a whole, and a mismatch shows two different digests. -/
theorem Digesters.checks_streamed {digesters : Digesters} {hasher : Hasher} (computes : digesters.Computes hasher)
    (file : Option (List UInt8)) (readings : List Reading) (joined : Bool) (expected : Checksum) :
    (∀ contents ∈ file, contents.length < readings.length →
      (digesters.verifyFile file readings joined expected).isSome = true) ∧
    ∀ result, digesters.verifyFile file readings joined expected = some result →
      (result = hasher.verifyFile file expected ∨
        (result = .error .io ∧ (joined = false ∨ .fails ∈ readings))) ∧
      ∀ want got, result = .error (.checksumMismatch want got) → want ≠ got := by
  refine ⟨?_, fun result done => ?_⟩
  · rintro contents rfl enough
    rw [verifyFile, Option.isSome_map]
    exact computeBlocking_isSome enough expected
  · have answer := verifyFile_cases computes done
    refine ⟨answer, fun want got mismatch => ?_⟩
    rcases answer with whole | ⟨failed, _⟩
    · exact Hasher.verifyFile_differs (whole.symm.trans mismatch)
    · rw [failed] at mismatch
      cases mismatch

/-- A crate that keeps the whole text computes any function of it. -/
def Digester.keeping (hash : List UInt8 → Vector UInt8 n) : Digester n :=
  ⟨List UInt8, [], (· ++ ·), hash⟩

theorem Digester.keeping_computes (hash : List UInt8 → Vector UInt8 n) : (keeping hash).Computes hash := by
  intro pieces
  have fed : ∀ start : List UInt8, pieces.foldl (· ++ ·) start = start ++ pieces.flatten := by
    induction pieces with
    | nil => exact fun start => (List.append_nil start).symm
    | cons piece pieces ih =>
        intro start
        rw [List.foldl_cons, ih, List.flatten_cons]
        exact List.append_assoc ..
  exact congrArg hash (fed [])

/-- The MD5 digest of the three bytes "abc" is the real one, and the others stand for any. -/
def sampleHasher : Hasher where
  md5 contents := if contents = [0x61, 0x62, 0x63] then
      #v[0x90, 0x01, 0x50, 0x98, 0x3c, 0xd2, 0x4f, 0xb0, 0xd6, 0x96, 0x3f, 0x7d, 0x28, 0xe1, 0x7f, 0x72]
    else .replicate 16 0
  sha256 _ := .replicate 32 0
  sha512 _ := .replicate 64 0

def sampleDigesters : Digesters :=
  ⟨.keeping sampleHasher.md5, .keeping sampleHasher.sha256, .keeping sampleHasher.sha512⟩

theorem sampleDigesters_computes : sampleDigesters.Computes sampleHasher :=
  ⟨Digester.keeping_computes _, Digester.keeping_computes _, Digester.keeping_computes _⟩

/-- The right digest is accepted, and the error about another one shows both. -/
theorem Digesters.checks_streamed_abc :
    sampleDigesters.verifyFile (some [0x61, 0x62, 0x63]) [.gives 2, .gives 0, .gives 9, .fails] true
        (.md5 (sampleHasher.md5 [0x61, 0x62, 0x63])) = some (.ok ()) ∧
      ∃ want got, sampleDigesters.verifyFile (some [0x61, 0x62, 0x63]) [.gives 2, .gives 0, .gives 9, .fails] true
        (.md5 (.replicate 16 0)) = some (.error (.checksumMismatch want got)) ∧ want ≠ got := by
  refine ⟨by decide +kernel, _, _, rfl, ?_⟩
  exact ((checks_streamed sampleDigesters_computes (some [0x61, 0x62, 0x63])
    [.gives 2, .gives 0, .gives 9, .fails] true (.md5 (.replicate 16 0))).2 _ rfl).2 _ _ rfl

end FastDownloader
