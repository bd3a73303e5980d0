/-
This file proves what `sanitize` makes of a name.
-/

import FastDownloader.Model.Filename

namespace FastDownloader.Filename

open Foundation

/-- The character may stand in a component of a path. -/
def SafeChar (char : Char) : Prop :=
  char ∉ ['/', '\\', '\x00', '<', '>', ':', '\x22', '|', '?', '*'] ∧ 0x20 ≤ char.toNat

theorem replaceReserved_safe (char : Char) : SafeChar (replaceReserved char) := by
  unfold replaceReserved
  split_ifs with separator reserved control
  · exact ⟨by decide, by decide⟩
  · exact ⟨by decide, by decide⟩
  · exact ⟨by decide, by decide⟩
  · refine ⟨fun listed => ?_, Nat.le_of_not_lt control⟩
    rcases List.mem_append.mp (show char ∈ ['/', '\\', '\x00'] ++ ['<', '>', ':', '\x22', '|', '?', '*'] from listed)
      with first | second
    · exact separator first
    · exact reserved second

theorem replaceReserved_of_safe {char : Char} (safe : SafeChar char) : replaceReserved char = char := by
  obtain ⟨unlisted, printable⟩ := safe
  have apart : char ∉ ['/', '\\', '\x00'] ++ ['<', '>', ':', '\x22', '|', '?', '*'] := unlisted
  rw [List.mem_append, not_or] at apart
  unfold replaceReserved
  rw [if_neg apart.1, if_neg apart.2, if_neg (Nat.not_lt.mpr printable)]

/-- A cleaned text has safe characters only, and neither end would be stripped. -/
structure Clean (text : List Char) : Prop where
  safe : ∀ char ∈ text, SafeChar char
  front : ∀ char ∈ text.head?, strippedFront char = false
  back : ∀ char ∈ text.getLast?, strippedBack char = false

theorem cleaned_clean (name : List Char) : Clean (cleaned name) where
  safe := by
    intro char member
    have inside := ( List.rdropWhile_prefix _ _).subset member
    obtain ⟨source, _, rfl⟩ := List.mem_map.mp ((List.dropWhile_suffix _).subset inside)
    exact replaceReserved_safe source
  front := by
    intro char first
    have kept : cleaned name <+: (name.map replaceReserved).dropWhile strippedFront := List.rdropWhile_prefix _ _
    obtain ⟨rest, same⟩ := kept
    have whole : ((name.map replaceReserved).dropWhile strippedFront).head? = some char := by
      rw [← same, List.head?_append, Option.mem_def.mp first]
      rfl
    have stopped := List.head?_dropWhile_not strippedFront (name.map replaceReserved)
    rwa [whole] at stopped
  back := by
    intro char last
    obtain ⟨nonempty, rfl⟩ := List.mem_getLast?_eq_getLast last
    exact Bool.eq_false_iff.mpr (List.rdropWhile_last_not strippedBack _ nonempty)

/-- A clean text is left as it is. -/
theorem Clean.cleaned_eq {text : List Char} (clean : Clean text) : cleaned text = text := by
  have mapped : text.map replaceReserved = text := by
    conv_rhs => rw [← List.map_id text]
    apply List.map_congr_left
    intro char member
    exact replaceReserved_of_safe (clean.safe char member)
  unfold cleaned
  rw [mapped]
  have fronted : text.dropWhile strippedFront = text := by
    cases text with
    | nil => rfl
    | cons char rest => rw [List.dropWhile_cons, clean.front char rfl, if_neg Bool.false_ne_true]
  rw [fronted, List.rdropWhile_eq_self_iff]
  intro nonempty stripped
  rw [clean.back _ (List.getLast?_eq_some_getLast nonempty)] at stripped
  cases stripped

theorem Clean.not_dots {text : List Char} (clean : Clean text) (nonempty : text ≠ []) :
    ¬ (text = [] ∨ text = ['.'] ∨ text = ['.', '.']) := by
  rintro (rfl | rfl | rfl)
  · exact nonempty rfl
  · cases clean.front '.' rfl
  · cases clean.front '.' rfl

/-- A character that occurs has a last occurrence. -/
theorem exists_last_of_mem {char : Char} {text : List Char} (member : char ∈ text) :
    ∃ front back, text = front ++ char :: back ∧ char ∉ back := by
  obtain ⟨back, front, same, later⟩ := List.eq_append_cons_of_mem (List.mem_reverse.mpr member)
  refine ⟨front.reverse, back.reverse, ?_, fun again => later (List.mem_reverse.mp again)⟩
  rw [← List.reverse_reverse text, same]
  simp

/-- There is only one last occurrence. -/
theorem last_unique {char : Char} {front other back rest : List Char} (last : char ∉ back) (unique : char ∉ rest)
    (same : front ++ char :: back = other ++ char :: rest) : front = other ∧ back = rest := by
  rcases List.append_eq_append_iff.mp same with ⟨between, rfl, later⟩ | ⟨between, rfl, later⟩
  · cases between with
    | nil => exact ⟨(List.append_nil _).symm, (List.cons.inj later).2⟩
    | cons head between =>
        rw [(List.cons.inj later).2] at last
        exact absurd (by simp) last
  · cases between with
    | nil => exact ⟨List.append_nil _, (List.cons.inj later).2.symm⟩
    | cons head between =>
        rw [(List.cons.inj later).2] at unique
        exact absurd (by simp) unique

theorem rfind_append {char : Char} (front : List Char) {back : List Char} (last : char ∉ back) :
    rfind char (front ++ char :: back) = some (byteLen front) := by
  have dropped : (front ++ char :: back).rdropWhile (· ≠ char) = front ++ [char] := by
    induction back using List.reverseRecOn with
    | nil => exact List.rdropWhile_concat_neg _ _ _ (by simp)
    | append_singleton back other ih =>
        rw [List.mem_append, not_or, List.mem_singleton] at last
        rw [← List.cons_append, ← List.append_assoc, List.rdropWhile_concat_pos _ _ _ (by simpa using Ne.symm last.2)]
        exact ih last.1
  rw [rfind, if_pos (by simp), dropped, List.dropLast_concat]

/-- The second loop stops at the end of the longest prefix. -/
theorem boundaryBelow_eq (text : List Char) (cut : Nat) : boundaryBelow text cut = byteLen (fit cut text) := by
  induction cut with
  | zero =>
      have small := byteLen_fit_le 0 text
      rw [boundaryBelow]
      omega
  | succ cut ih =>
      rw [boundaryBelow]
      split_ifs with boundary
      · obtain ⟨front, rest, rfl, length⟩ := exists_of_isCharBoundary boundary
        rw [← length, fit_exact]
      · obtain ⟨front, rest, rfl, fitted, small, full⟩ := exists_fit (cut + 1) text
        have short : byteLen front ≠ cut + 1 := by
          intro same
          rw [← same] at boundary
          exact boundary (isCharBoundary_append front rest)
        rw [ih, fitted, fit_append (by omega)]
        intro next first
        have exceeds := full next first
        omega

theorem truncate_boundaryBelow {text : List Char} {cut : Nat} (long : cut < byteLen text) :
    truncate text (boundaryBelow text cut) = some (fit cut text) := by
  rw [boundaryBelow_eq]
  obtain ⟨front, rest, rfl, fitted, small, _⟩ := exists_fit cut text
  rw [fitted, truncate, if_neg (by omega), splitAtByte_append]
  rfl

/-- The first loop and its truncation leave the longest prefix of the stem. -/
theorem truncate_popToBoundary (budget : Nat) (stem : List Char) :
    truncate (popToBoundary budget stem.reverse) (min budget (byteLen (popToBoundary budget stem.reverse))) =
      some (fit budget stem) := by
  induction stem using List.reverseRecOn with
  | nil => simp [popToBoundary, truncate, splitAtByte, fit]
  | append_singleton stem char ih =>
      rw [List.reverse_append, List.reverse_singleton, List.singleton_append, popToBoundary]
      rw [List.reverse_cons, List.reverse_reverse]
      split_ifs with boundary
      · obtain ⟨front, rest, same, length⟩ := exists_of_isCharBoundary boundary
        rw [same] at length ⊢
        rw [← length, truncate, if_neg (by rw [byteLen_append]; omega), splitAtByte_append]
        apply congrArg some
        show front = _
        by_cases large : byteLen (front ++ rest) ≤ budget
        · -- The whole stem fits, so nothing is left behind the boundary.
          rw [fit_of_le large]
          rw [byteLen_append] at length large
          have none_left : rest = [] := by
            by_contra nonempty
            have positive := byteLen_pos nonempty
            omega
          rw [none_left, List.append_nil]
        · rw [Nat.min_eq_left (Nat.le_of_not_le large)] at length
          rw [← length, fit_exact]
      · have exceeds : budget < byteLen (stem ++ [char]) := by
          by_contra fits
          rw [Nat.min_eq_right (Nat.le_of_not_lt fits)] at boundary
          exact boundary (isCharBoundary_end _)
        rw [fit_concat exceeds]
        exact ih

/-- These are the ways a name leaves `sanitize`, told by its cleaned text. -/
inductive Outcome (text : List Char) : List Char → Prop
  | fallback (empty : text = []) : Outcome text fallbackFilename
  | whole (nonempty : text ≠ []) (short : byteLen text ≤ maxFilenameLen) : Outcome text text
  | extension (stem tail : List Char) (long : maxFilenameLen < byteLen text) (parts : text = stem ++ '.' :: tail)
      (last : '.' ∉ tail) (small : byteLen ('.' :: tail) ≤ 16) :
      Outcome text (fit (maxFilenameLen - byteLen ('.' :: tail)) stem ++ '.' :: tail)
  | cut (long : maxFilenameLen < byteLen text)
      (large : ∀ stem tail, text = stem ++ '.' :: tail → '.' ∉ tail → 16 < byteLen ('.' :: tail)) :
      Outcome text (fit maxFilenameLen text)

/-- No slice and no truncation panics, and the name leaves in one of the listed ways. -/
theorem sanitize_outcome (name : List Char) :
    ∃ result, sanitize name = some result ∧ Outcome (cleaned name) result := by
  have clean := cleaned_clean name
  unfold sanitize
  dsimp only
  generalize cleaned name = text at clean ⊢
  by_cases empty : text = []
  · subst empty
    exact ⟨fallbackFilename, rfl, .fallback rfl⟩
  rw [if_neg (clean.not_dots empty)]
  split_ifs with long
  · by_cases dotted : '.' ∈ text
    · obtain ⟨stem, tail, rfl, last⟩ := exists_last_of_mem dotted
      have nonempty : 0 < byteLen stem := by
        apply byteLen_pos
        rintro rfl
        cases clean.front '.' rfl
      simp only [rfind_append stem last, splitAtByte_append, Option.bind_some]
      split_ifs with small
      · rw [truncate_popToBoundary]
        exact ⟨_, rfl, .extension stem tail long rfl last small.1⟩
      · rw [truncate_boundaryBelow long]
        refine ⟨_, rfl, .cut long ?_⟩
        intro other rest same unique
        obtain ⟨rfl, rfl⟩ := last_unique last unique same
        exact Nat.lt_of_not_le fun little => small ⟨little, nonempty⟩
    · rw [rfind, if_neg dotted, truncate_boundaryBelow long]
      refine ⟨_, rfl, .cut long ?_⟩
      rintro stem tail rfl _
      exact absurd (by simp) dotted
  · exact ⟨text, rfl, .whole empty (Nat.le_of_not_lt long)⟩

/-- A result other than the fallback begins as its cleaned text does and uses only characters of it. -/
theorem Outcome.shape {text result : List Char} (outcome : Outcome text result) :
    result = fallbackFilename ∨
      (result ≠ [] ∧ byteLen result ≤ maxFilenameLen ∧ result.head? = text.head? ∧ ∀ char ∈ result, char ∈ text) := by
  have filled : ∀ {budget : Nat} {stem : List Char}, 4 ≤ budget → stem ≠ [] →
      fit budget stem ≠ [] ∧ (fit budget stem).head? = stem.head? := by
    intro budget stem roomy nonempty
    obtain ⟨char, rest, rfl⟩ := List.exists_cons_of_ne_nil nonempty
    have size := char.utf8Size_le_four
    rw [fit, if_pos (by omega)]
    exact ⟨List.cons_ne_nil _ _, rfl⟩
  cases outcome with
  | fallback => exact Or.inl rfl
  | whole nonempty short => exact Or.inr ⟨nonempty, short, rfl, fun _ member => member⟩
  | extension stem tail long parts last small =>
      subst parts
      have length := byteLen_fit_le (maxFilenameLen - byteLen ('.' :: tail)) stem
      have room : 4 ≤ maxFilenameLen - byteLen ('.' :: tail) := by
        unfold maxFilenameLen
        omega
      refine Or.inr ⟨by simp, ?_, ?_, ?_⟩
      · rw [byteLen_append]
        unfold maxFilenameLen at *
        omega
      · rw [List.head?_append, List.head?_append]
        by_cases nonempty : stem = []
        · rw [nonempty]
          rfl
        · rw [(filled room nonempty).2]
      · intro char member
        rcases List.mem_append.mp member with inside | behind
        · exact List.mem_append_left _ ((fit_start _ _).subset inside)
        · exact List.mem_append_right _ behind
  | cut long =>
      have nonempty : text ≠ [] := by
        rintro rfl
        exact Nat.not_lt_zero _ long
      have kept := filled (show 4 ≤ maxFilenameLen by decide) nonempty
      exact Or.inr ⟨kept.1, byteLen_fit_le _ _, kept.2, fun char member => (fit_start _ _).subset member⟩

/-- The text can be used as the last component of a path. -/
structure SafeComponent (text : List Char) : Prop where
  nonempty : text ≠ []
  short : byteLen text ≤ 200
  not_dot : text ≠ ['.']
  not_dots : text ≠ ['.', '.']
  safe : ∀ char ∈ text, SafeChar char
  front : ∀ char ∈ text.head?, char ≠ '.' ∧ char ≠ ' ' ∧ char ≠ '_'

theorem strippedFront_eq_false_iff (char : Char) :
    strippedFront char = false ↔ char ≠ '.' ∧ char ≠ ' ' ∧ char ≠ '_' := by
  simp [strippedFront, and_assoc]

theorem fallbackFilename_safe : SafeComponent fallbackFilename where
  nonempty := by decide
  short := by decide
  not_dot := by decide
  not_dots := by decide
  safe := by
    unfold SafeChar
    decide
  front := by
    intro char first
    obtain rfl := Option.some.inj first
    decide

theorem Outcome.safe {text result : List Char} (outcome : Outcome text result) (clean : Clean text) :
    SafeComponent result := by
  rcases outcome.shape with rfl | ⟨nonempty, short, same, members⟩
  · exact fallbackFilename_safe
  · have front : ∀ char ∈ result.head?, char ≠ '.' ∧ char ≠ ' ' ∧ char ≠ '_' := by
      intro char first
      rw [same] at first
      exact (strippedFront_eq_false_iff char).mp (clean.front char first)
    refine ⟨nonempty, short, ?_, ?_, fun char member => clean.safe char (members char member), front⟩
    · rintro rfl
      exact (front '.' rfl).1 rfl
    · rintro rfl
      exact (front '.' rfl).1 rfl

/-- Every name is sanitized without a panic to a safe component, and a long name keeps a short extension. -/
theorem sanitize_safe (name : List Char) :
    ∃ result, sanitize name = some result ∧ SafeComponent result ∧
      (200 < byteLen (cleaned name) → ∀ stem tail, cleaned name = stem ++ '.' :: tail → '.' ∉ tail →
        byteLen ('.' :: tail) ≤ 16 → ∃ front, front <+: stem ∧ result = front ++ '.' :: tail) := by
  obtain ⟨result, sanitized, outcome⟩ := sanitize_outcome name
  refine ⟨result, sanitized, outcome.safe (cleaned_clean name), ?_⟩
  intro long stem tail parts last small
  cases outcome with
  | fallback empty =>
      rw [empty] at long
      cases long
  | whole _ short => exact absurd short (Nat.not_le.mpr long)
  | extension other rest _ same unique _ =>
      obtain ⟨rfl, rfl⟩ := last_unique last unique (parts.symm.trans same)
      exact ⟨_, fit_start _ _, rfl⟩
  | cut _ large => exact absurd small (Nat.not_le.mpr (large stem tail parts last))

/-- The result keeps its end free of dots and blanks, and a second pass changes nothing. -/
def NormalForm (result : List Char) : Prop :=
  (∀ char ∈ result.getLast?, char ≠ '.' ∧ char ≠ ' ') ∧ sanitize result = some result

/-- The character that ends within the first 200 bytes of the text is no dot and no blank. -/
def CutsWell (text : List Char) : Prop :=
  ∀ front last next rest, text = front ++ last :: next :: rest → byteLen (front ++ [last]) ≤ 200 →
    200 < byteLen (front ++ [last, next]) → last ≠ '.' ∧ last ≠ ' '

theorem strippedBack_eq_false_iff (char : Char) : strippedBack char = false ↔ char ≠ '.' ∧ char ≠ ' ' := by
  simp [strippedBack]

/-- A clean text of at most 200 bytes is sanitized already. -/
theorem Clean.sanitize_eq {text : List Char} (clean : Clean text) (nonempty : text ≠ []) (short : byteLen text ≤ 200) :
    sanitize text = some text := by
  have fits : ¬ byteLen text > maxFilenameLen := Nat.not_lt.mpr short
  unfold sanitize
  rw [clean.cleaned_eq]
  dsimp only
  rw [if_neg (clean.not_dots nonempty), if_neg fits]

/-- A result is in normal form exactly when its end would not be stripped. -/
theorem Outcome.normalForm_iff {text result : List Char} (outcome : Outcome text result) (clean : Clean text) :
    NormalForm result ↔ ∀ char ∈ result.getLast?, char ≠ '.' ∧ char ≠ ' ' := by
  refine ⟨And.left, fun back => ⟨back, ?_⟩⟩
  have safe := outcome.safe clean
  apply Clean.sanitize_eq _ safe.nonempty safe.short
  refine ⟨safe.safe, ?_, ?_⟩
  · intro char first
    exact (strippedFront_eq_false_iff char).mpr (safe.front char first)
  · intro char last
    exact (strippedBack_eq_false_iff char).mpr (back char last)

/-- A text that is cut ends with the last character of its longest prefix. -/
theorem cutsWell_iff {text : List Char} (long : 200 < byteLen text) :
    CutsWell text ↔ ∀ char ∈ (fit 200 text).getLast?, char ≠ '.' ∧ char ≠ ' ' := by
  constructor
  · intro cuts char last
    obtain ⟨front, rest, rfl, fitted, small, full⟩ := exists_fit 200 text
    rw [fitted] at last
    obtain ⟨start, rfl⟩ := List.getLast?_eq_some_iff.mp last
    cases rest with
    | nil =>
        rw [List.append_nil] at long
        omega
    | cons next rest =>
        have exceeds := full next rfl
        apply cuts start char next rest (by simp) small
        simp only [byteLen_append, byteLen_cons, byteLen_nil] at exceeds ⊢
        omega
  · rintro back front last next rest rfl small exceeds
    have fitted : fit 200 ((front ++ [last]) ++ next :: rest) = front ++ [last] := by
      apply fit_append small
      intro other first
      obtain rfl := Option.some.inj first
      simp only [byteLen_append, byteLen_cons, byteLen_nil] at exceeds ⊢
      omega
    rw [List.append_assoc, List.singleton_append] at fitted
    rw [fitted] at back
    exact back last (by simp)

/-- A sanitized name is in normal form unless a cut exposes a dot or a blank at its end. -/
theorem sanitize_normal_iff (name : List Char) :
    (∃ result, sanitize name = some result ∧ NormalForm result) ↔
      (byteLen (cleaned name) ≤ 200 ∨
        (∃ stem tail, cleaned name = stem ++ '.' :: tail ∧ '.' ∉ tail ∧ byteLen ('.' :: tail) ≤ 16) ∨
        CutsWell (cleaned name)) := by
  obtain ⟨result, sanitized, outcome⟩ := sanitize_outcome name
  have clean := cleaned_clean name
  have back : ∀ char ∈ (cleaned name).getLast?, char ≠ '.' ∧ char ≠ ' ' := fun char last =>
    (strippedBack_eq_false_iff char).mp (clean.back char last)
  have reduced : (∃ result, sanitize name = some result ∧ NormalForm result) ↔
      ∀ char ∈ result.getLast?, char ≠ '.' ∧ char ≠ ' ' := by
    rw [← outcome.normalForm_iff clean]
    constructor
    · rintro ⟨other, same, normal⟩
      exact Option.some.inj (sanitized.symm.trans same) ▸ normal
    · exact fun normal => ⟨result, sanitized, normal⟩
  rw [reduced]
  generalize cleaned name = text at outcome clean back
  cases outcome with
  | fallback empty =>
      subst empty
      have last : ∀ char ∈ fallbackFilename.getLast?, char ≠ '.' ∧ char ≠ ' ' := by
        intro char same
        obtain rfl := Option.some.inj same
        decide
      exact iff_of_true last (Or.inl (Nat.zero_le _))
  | whole _ short => exact iff_of_true back (Or.inl short)
  | extension stem tail long parts last small =>
      subst parts
      refine iff_of_true ?_ (Or.inr (Or.inl ⟨stem, tail, rfl, last, small⟩))
      rw [List.getLast?_append_cons] at back ⊢
      exact back
  | cut long large =>
      have unshortened : ¬ (byteLen text ≤ 200 ∨
          ∃ stem tail, text = stem ++ '.' :: tail ∧ '.' ∉ tail ∧ byteLen ('.' :: tail) ≤ 16) := by
        rintro (short | ⟨stem, tail, parts, last, small⟩)
        · exact absurd short (Nat.not_le.mpr long)
        · exact absurd small (Nat.not_le.mpr (large stem tail parts last))
      rw [← or_assoc, or_iff_right unshortened]
      exact (cutsWell_iff long).symm

/-- The cut of this name falls behind its blank. -/
def exposedName : List Char := List.replicate 199 'a' ++ [' ', 'b']

theorem sanitize_not_normal : ¬ ∀ name, ∃ result, sanitize name = some result ∧ NormalForm result := by
  intro normal
  obtain ⟨result, sanitized, back, _⟩ := normal exposedName
  have cut : sanitize exposedName = some (List.replicate 199 'a' ++ [' ']) := by decide +kernel
  obtain rfl := Option.some.inj (cut.symm.trans sanitized)
  exact (back ' ' List.getLast?_concat).2 rfl

end FastDownloader.Filename
