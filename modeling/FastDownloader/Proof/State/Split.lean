/-
This file proves how `split_workers` divides a file, and when its ranges are as long as they should be.
-/

import Mathlib.Algebra.Order.Floor.Div
import FastDownloader.Model.Overflow
import FastDownloader.Proof.State.Ranges

namespace FastDownloader

open Foundation

variable {fileSize threadCount minChunk : Nat}

theorem splitFrom_length {chunk remaining pos : Nat} :
    (splitFrom fileSize chunk remaining pos).length = remaining := by
  induction remaining generalizing pos with
  | zero => rfl
  | succ remaining ih =>
      simp only [splitFrom, List.length_cons]
      rw [ih]

/-- Each range is one chunk long. Only the last one goes on to the end of the file. -/
theorem splitFrom_getElem? {chunk remaining pos index : Nat} (inside : index < remaining) :
    (splitFrom fileSize chunk remaining pos)[index]? =
      some ⟨pos + index * chunk, pos + index * chunk,
        if index + 1 = remaining then fileSize else pos + (index + 1) * chunk⟩ := by
  induction remaining generalizing pos index with
  | zero => omega
  | succ remaining ih =>
      unfold splitFrom
      cases index with
      | zero =>
          have same : remaining = 0 ↔ 0 + 1 = remaining + 1 := by omega
          simp only [List.getElem?_cons_zero, Nat.zero_mul, Nat.add_zero, Nat.zero_add, Nat.one_mul, same]
      | succ index =>
          have more : ¬ remaining = 0 := by omega
          have same : index + 1 = remaining ↔ index + 1 + 1 = remaining + 1 := by omega
          dsimp only
          rw [List.getElem?_cons_succ, ih (by omega), if_neg more]
          simp only [same, Nat.add_assoc, Nat.add_mul, Nat.one_mul, Nat.add_comm chunk]

/-- The number of ranges. -/
theorem splitWorkers_length {workers : List WorkerRange}
    (split : splitWorkers fileSize threadCount minChunk = some workers) :
    workers.length = effectiveThreads fileSize threadCount minChunk := by
  unfold splitWorkers at split
  split_ifs at split
  obtain rfl := Option.some.inj split
  exact splitFrom_length

theorem splitWorkers_getElem? {workers : List WorkerRange} {index : Nat}
    (split : splitWorkers fileSize threadCount minChunk = some workers) (inside : index < workers.length) :
    workers[index]? = some ⟨index * (fileSize / workers.length), index * (fileSize / workers.length),
      if index + 1 = workers.length then fileSize else (index + 1) * (fileSize / workers.length)⟩ := by
  have length := splitWorkers_length split
  unfold splitWorkers at split
  split_ifs at split
  obtain rfl := Option.some.inj split
  rw [length] at inside ⊢
  have placed := @splitFrom_getElem? fileSize (fileSize / effectiveThreads fileSize threadCount minChunk) _ 0 _ inside
  simpa only [Nat.zero_add] using placed

theorem effectiveThreads_le_threads : effectiveThreads fileSize threadCount minChunk ≤ max threadCount 1 := by
  unfold effectiveThreads
  dsimp only
  split_ifs
  · omega
  · exact Nat.le_refl _

/-- There are no more workers than chunks. -/
theorem effectiveThreads_le_chunks (positive : 0 < fileSize) (bounded : 0 < minChunk) :
    effectiveThreads fileSize threadCount minChunk ≤ fileSize ⌈/⌉ minChunk := by
  have some_chunk : 0 < fileSize ⌈/⌉ minChunk := by
    rw [Nat.ceilDiv_eq_add_pred_div]
    exact Nat.div_pos (by omega) bounded
  unfold effectiveThreads
  rw [Nat.ceilDiv_eq_add_pred_div] at some_chunk ⊢
  dsimp only
  rw [if_pos bounded]
  omega

/-- A remainder takes one more chunk. -/
theorem chunks_of_rest (bounded : 0 < minChunk) (rest : 0 < fileSize % minChunk) :
    (fileSize + minChunk - 1) / minChunk = fileSize / minChunk + 1 := by
  have whole := Nat.div_add_mod' fileSize minChunk
  have small := Nat.mod_lt fileSize bounded
  have regrouped : fileSize + minChunk - 1 = fileSize % minChunk - 1 + (fileSize / minChunk + 1) * minChunk := by
    rw [Nat.succ_mul]
    omega
  rw [regrouped, Nat.add_mul_div_right _ _ bounded, Nat.div_eq_of_lt (by omega), Nat.zero_add]

theorem chunks_of_dvd (bounded : 0 < minChunk) (divides : minChunk ∣ fileSize) :
    (fileSize + minChunk - 1) / minChunk = fileSize / minChunk := by
  have whole := Nat.div_mul_cancel divides
  have regrouped : fileSize + minChunk - 1 = minChunk - 1 + fileSize / minChunk * minChunk := by omega
  rw [regrouped, Nat.add_mul_div_right _ _ bounded, Nat.div_eq_of_lt (by omega), Nat.zero_add]

/-- The quotient is rounded up, and no step wraps. -/
theorem divCeil_eq (fits : fileSize < wordLimit) (bounded : 0 < minChunk) :
    divCeil fileSize minChunk = some ((fileSize + minChunk - 1) / minChunk) := by
  unfold divCeil
  rw [if_neg (Nat.ne_of_gt bounded)]
  split_ifs with rest
  · -- A remainder needs a divisor of at least two, so the quotient is at most half of the file size.
    have small := Nat.mod_lt fileSize bounded
    have half : fileSize / minChunk * 2 ≤ fileSize :=
      (Nat.mul_le_mul_left _ (by omega)).trans (Nat.div_mul_le_self fileSize minChunk)
    have bound : fileSize / minChunk + 1 < wordLimit := by
      unfold wordLimit at fits ⊢
      omega
    rw [checkedAdd_of_lt bound, chunks_of_rest bounded rest]
  · rw [chunks_of_dvd bounded (Nat.dvd_of_mod_eq_zero (Nat.eq_zero_of_not_pos rest))]

/-- The running position stays inside the file, so no sum of the loop wraps. -/
theorem splitLoop_eq {chunk remaining pos : Nat} (fits : fileSize < wordLimit)
    (room : pos + remaining * chunk ≤ fileSize) :
    splitLoop fileSize chunk remaining pos = some (splitFrom fileSize chunk remaining pos) := by
  induction remaining generalizing pos with
  | zero => rfl
  | succ remaining ih =>
      rw [Nat.succ_mul] at room
      unfold splitLoop splitFrom
      by_cases last : remaining = 0
      · subst last
        rfl
      · rw [if_neg last, if_neg last, checkedAdd_of_lt (by omega), Option.bind_some]
        dsimp only
        rw [ih (by omega), Option.map_some]

theorem effectiveWord_eq (fits : fileSize < wordLimit) :
    effectiveWord fileSize threadCount minChunk = some (effectiveThreads fileSize threadCount minChunk) := by
  unfold effectiveWord effectiveThreads
  dsimp only
  by_cases bounded : 0 < minChunk
  · rw [if_pos bounded, if_pos bounded, divCeil_eq fits bounded, Option.map_some]
  · rw [if_neg bounded, if_neg bounded]

/-- The split with machine words is the split with numbers. -/
theorem splitWorkersWord_eq (fits : fileSize < wordLimit) :
    splitWorkersWord fileSize threadCount minChunk = splitWorkers fileSize threadCount minChunk := by
  unfold splitWorkersWord splitWorkers
  by_cases positive : 0 < fileSize
  · have threads := effectiveThreads_pos fileSize threadCount minChunk
    have room := Nat.mul_div_le fileSize (effectiveThreads fileSize threadCount minChunk)
    rw [if_pos positive, if_pos positive, effectiveWord_eq fits, Option.bind_some, if_neg (Nat.ne_of_gt threads),
      checkedSub_of_le threads, Option.bind_some]
    exact splitLoop_eq fits (by rwa [Nat.zero_add])
  · rw [if_neg positive, if_neg positive]

/-- A split is a cover whose ranges are one chunk long, and the last one takes the rest. -/
theorem splitWorkers_lengths {workers : List WorkerRange}
    (split : splitWorkers fileSize threadCount minChunk = some workers) {index : Nat} {worker : WorkerRange}
    (present : workers[index]? = some worker) :
    (index + 1 < workers.length → worker.stop - worker.start = fileSize / workers.length) ∧
      (index + 1 = workers.length → fileSize / workers.length ≤ worker.stop - worker.start ∧
        worker.stop - worker.start < fileSize / workers.length + workers.length) := by
  obtain ⟨inside, -⟩ := List.getElem?_eq_some_iff.mp present
  have placed := splitWorkers_getElem? split inside
  rw [present, Option.some.injEq] at placed
  subst placed
  have whole := Nat.div_add_mod fileSize workers.length
  have small := Nat.mod_lt fileSize (Nat.lt_of_le_of_lt (Nat.zero_le index) inside)
  constructor
  · intro before
    dsimp only
    rw [if_neg (Nat.ne_of_lt before), Nat.succ_mul, Nat.add_sub_cancel_left]
  · intro last
    dsimp only
    rw [if_pos last]
    have joined : workers.length * (fileSize / workers.length) =
        index * (fileSize / workers.length) + fileSize / workers.length := by
      rw [← Nat.succ_mul, ← last]
    rw [joined] at whole
    generalize index * (fileSize / workers.length) = before at whole ⊢
    generalize fileSize / workers.length = chunk at whole ⊢
    omega

/-- Every split is exact and balanced, and no step of it wraps. -/
theorem splitWorkers_balanced (fileSize threadCount minChunk : Nat) (positive : 1 ≤ fileSize)
    (fits : fileSize < wordLimit) :
    ∃ workers, splitWorkers fileSize threadCount minChunk = some workers ∧
      1 ≤ workers.length ∧ workers.length ≤ max threadCount 1 ∧
      (0 < minChunk → workers.length ≤ fileSize ⌈/⌉ minChunk) ∧
      (∀ url, (DownloadState.new url fileSize workers).validate = .ok ()) ∧
      (∀ worker ∈ workers, worker.current = worker.start) ∧
      (∀ (index : Nat) (worker : WorkerRange), workers[index]? = some worker →
        (index + 1 < workers.length → worker.stop - worker.start = fileSize / workers.length) ∧
        (index + 1 = workers.length → fileSize / workers.length ≤ worker.stop - worker.start ∧
          worker.stop - worker.start < fileSize / workers.length + workers.length)) ∧
      splitWorkersWord fileSize threadCount minChunk = some workers := by
  obtain ⟨workers, split⟩ : ∃ workers, splitWorkers fileSize threadCount minChunk = some workers :=
    ⟨_, if_pos positive⟩
  have length := splitWorkers_length split
  obtain ⟨cover, fresh⟩ := splitWorkers_cover split
  refine ⟨workers, split, ?_, ?_, ?_, ?_, fresh, fun index worker present => splitWorkers_lengths split present, ?_⟩
  · rw [length]
    exact effectiveThreads_pos fileSize threadCount minChunk
  · rw [length]
    exact effectiveThreads_le_threads
  · intro bounded
    rw [length]
    exact effectiveThreads_le_chunks positive bounded
  · intro url
    exact (validate_ok_iff _).mpr ⟨rfl, splitWorkers_ne_nil split, cover⟩
  · rw [splitWorkersWord_eq fits, split]

theorem splitWorkers_balanced_largest : ∃ workers, splitWorkersWord (2 ^ 64 - 1) 16 (2 ^ 20) = some workers := by
  obtain ⟨workers, -, -, -, -, -, -, -, split⟩ :=
    splitWorkers_balanced (2 ^ 64 - 1) 16 (2 ^ 20) (by decide) (by decide)
  exact ⟨workers, split⟩

/-- Every range has the least length, or the file is shorter than that and has one range. -/
def RespectsMinChunk (fileSize threadCount minChunk : Nat) : Prop :=
  ∃ workers, splitWorkers fileSize threadCount minChunk = some workers ∧
    (minChunk ≤ fileSize → ∀ worker ∈ workers, minChunk ≤ worker.stop - worker.start) ∧
    (fileSize < minChunk → workers.length = 1)

/-- All ranges have the least length exactly when the chunks of this length suffice for the workers. -/
theorem splitWorkers_long_iff {workers : List WorkerRange}
    (split : splitWorkers fileSize threadCount minChunk = some workers) :
    (∀ worker ∈ workers, minChunk ≤ worker.stop - worker.start) ↔ workers.length * minChunk ≤ fileSize := by
  have threads : 0 < workers.length := by
    rw [splitWorkers_length split]
    exact effectiveThreads_pos fileSize threadCount minChunk
  rw [Nat.mul_comm, ← Nat.le_div_iff_mul_le threads]
  constructor
  · intro long
    have present := List.getElem?_eq_getElem threads
    have first := long _ (List.getElem_mem threads)
    obtain ⟨before, last⟩ := splitWorkers_lengths split present
    rcases Nat.lt_or_eq_of_le (Nat.succ_le_of_lt threads) with several | single
    · exact before several ▸ first
    · -- The only range is the whole file.
      have whole := (splitWorkers_cover split).1.tiles.bounds _ (List.getElem_mem threads)
      rw [← single, Nat.div_one]
      omega
  · intro enough worker member
    obtain ⟨index, present⟩ := List.getElem?_of_mem member
    obtain ⟨inside, -⟩ := List.getElem?_eq_some_iff.mp present
    obtain ⟨before, last⟩ := splitWorkers_lengths split present
    rcases Nat.lt_or_eq_of_le (Nat.succ_le_of_lt inside) with earlier | final
    · exact before earlier ▸ enough
    · exact enough.trans (last final).1

/-- The number of workers is rounded up, so each worker has a whole chunk exactly when the rounding does not count. -/
theorem respectsMinChunk_iff (fileSize threadCount minChunk : Nat) (bounded : 0 < minChunk) :
    RespectsMinChunk fileSize threadCount minChunk ↔
      0 < fileSize ∧ (fileSize < minChunk ∨ minChunk ∣ fileSize ∨ max threadCount 1 ≤ fileSize / minChunk) := by
  have chosen : effectiveThreads fileSize threadCount minChunk =
      max (min (max threadCount 1) ((fileSize + minChunk - 1) / minChunk)) 1 := if_pos bounded
  constructor
  · rintro ⟨workers, split, long, -⟩
    have positive : 0 < fileSize := by
      by_contra empty
      unfold splitWorkers at split
      rw [if_neg empty] at split
      cases split
    refine ⟨positive, ?_⟩
    by_contra rounded
    simp only [not_or, Nat.not_lt, Nat.not_le] at rounded
    obtain ⟨reached, rest, threads⟩ := rounded
    have enough := (splitWorkers_long_iff split).mp (long reached)
    rw [← Nat.le_div_iff_mul_le bounded, splitWorkers_length split, chosen,
      chunks_of_rest bounded (Nat.pos_of_ne_zero fun none => rest (Nat.dvd_of_mod_eq_zero none))] at enough
    omega
  · rintro ⟨positive, cases⟩
    refine ⟨_, if_pos positive, fun reached => ?_, fun short => ?_⟩
    · refine (splitWorkers_long_iff (if_pos positive)).mpr ?_
      have some_chunk : 0 < fileSize / minChunk := Nat.div_pos reached bounded
      rw [← Nat.le_div_iff_mul_le bounded, splitFrom_length, chosen]
      rcases cases with short | divides | threads
      · omega
      · rw [chunks_of_dvd bounded divides]
        omega
      · omega
    · have one : (fileSize + minChunk - 1) / minChunk = 1 := by
        rw [chunks_of_rest bounded (by rwa [Nat.mod_eq_of_lt short]), Nat.div_eq_of_lt short]
      rw [splitFrom_length, chosen, one]
      omega

theorem respectsMinChunk_iff_exact : RespectsMinChunk 1000 16 500 :=
  (respectsMinChunk_iff 1000 16 500 (by decide)).mpr ⟨by decide, Or.inr (Or.inl (by decide))⟩

/-- Two workers share less than two chunks. -/
theorem minChunk_not_respected :
    ¬ ∀ fileSize threadCount minChunk, 0 < minChunk → 0 < fileSize → RespectsMinChunk fileSize threadCount minChunk := by
  intro always
  obtain ⟨workers, split, long, -⟩ := always 1000 16 600 (by decide) (by decide)
  have two : splitWorkers 1000 16 600 = some [⟨0, 0, 500⟩, ⟨500, 500, 1000⟩] := rfl
  obtain rfl := Option.some.inj (split.symm.trans two)
  exact absurd (long (by decide) _ List.mem_cons_self) (by decide)

end FastDownloader
