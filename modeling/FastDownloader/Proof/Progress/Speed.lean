/-
This file proves that the speed of a download is measured over its recent samples and over nothing else.
-/

import FastDownloader.Foundation.Window
import FastDownloader.Model.Progress

namespace FastDownloader

open Foundation

namespace SpeedMeter

variable {id window now cur : Nat} {total : Option Nat} {meter : SpeedMeter}
  {past ticks : List (Nat × Nat)}

/-- A sample gets stale when it is older than the window. -/
def stale (window : Nat) (newest sample : Nat × Nat) : Bool := newest.1 - sample.1 > window

theorem stale_aging (window : Nat) : Aging (stale window) fun old young => old.1 ≤ young.1 where
  older newest old young order := by
    simp only [stale, decide_eq_true_eq]
    omega
  stays entry newest next order := by
    simp only [stale, decide_eq_true_eq]
    omega
  fresh newest := by simp [stale]

@[simp] theorem record_window : (meter.record now cur).window = meter.window := rfl

@[simp] theorem record_capacity : (meter.record now cur).capacity = meter.capacity := rfl

/-- The meter after these ticks. -/
def after (window : Nat) (ticks : List (Nat × Nat)) : SpeedMeter :=
  ticks.foldl (fun meter tick => meter.record tick.1 tick.2) (new window)

theorem after_snoc : after window (ticks ++ [(now, cur)]) = (after window ticks).record now cur := by
  simp [after]

theorem after_eq (window : Nat) (ticks : List (Nat × Nat)) :
    after window ticks = ⟨window, ticks.foldl (slide 1024 (stale window)) [], 1024⟩ := by
  induction ticks using List.reverseRecOn with
  | nil => rfl
  | append_singleton ticks tick ih =>
      rw [after_snoc, ih, List.foldl_append, List.foldl_cons, List.foldl_nil]
      rfl

/-- The samples that the meter still holds are the last ones of the window. -/
theorem after_samples (ordered : (past ++ [(now, cur)]).Pairwise fun old young => old.1 ≤ young.1) :
    (after window (past ++ [(now, cur)])).samples = recent 1024 (stale window) (now, cur) (past ++ [(now, cur)]) := by
  rw [after_eq]
  exact foldl_slide (stale_aging window) ordered

theorem emits_getElem? (id : Nat) (total : Option Nat) (window : Nat)
    (start past : List (Nat × Nat)) (now cur : Nat) (future : List (Nat × Nat)) :
    ((after window start).emits id total (past ++ (now, cur) :: future))[past.length]? =
      some ((after window (start ++ past)).emit id total now cur).1 := by
  induction past generalizing start with
  | nil => rw [List.append_nil]; rfl
  | cons tick past ih =>
      have next := ih (start ++ [tick])
      rw [after_snoc, List.append_assoc] at next
      exact next

/-- These are the earlier ticks that a speed takes into account. -/
def counted (window now : Nat) (past : List (Nat × Nat)) : List (Nat × Nat) :=
  (past.filter fun tick => !stale window (now, 0) tick).rtake 1023

theorem after_counted (ordered : (past ++ [(now, cur)]).Pairwise fun old young => old.1 ≤ young.1) :
    (after window (past ++ [(now, cur)])).samples = counted window now past ++ [(now, cur)] :=
  (after_samples ordered).trans (recent_concat (stale_aging window) past (now, cur))

theorem mem_counted {tick : Nat × Nat} (member : tick ∈ counted window now past) :
    tick ∈ past ∧ now - tick.1 ≤ window := by
  obtain ⟨earlier, fresh⟩ := List.mem_filter.mp (List.mem_of_mem_drop member)
  exact ⟨earlier, by simpa [stale] using fresh⟩

/-- No bytes have no speed, whatever the duration is: their quotient is a zero or no number. -/
theorem rate_zero (nanos : Nat) : rate 0 nanos = 0 := by
  have quotient : (0 : Nat).toUInt64.toFloat / asSecsF64 nanos =
      ⟨.pack (.div .binary64 (.zero .positive) (asSecsF64 nanos).toModel.unpack)⟩ := rfl
  rw [rate, quotient]
  cases (asSecsF64 nanos).toModel.unpack with
  | notANumber => decide +kernel
  | infinity sign => cases sign <;> decide +kernel
  | zero sign => cases sign <;> decide +kernel
  | finite sign mantissa exponent positive =>
      have zero : Float.Model.UnpackedFloat.div .binary64 (.zero .positive)
          (.finite sign mantissa exponent positive) = .zero (.positive / sign) := rfl
      rw [zero]
      cases sign <;> decide +kernel

/-- The speed is measured from the oldest tick that counts. -/
theorem speedBps_counted (ordered : (past ++ [(now, cur)]).Pairwise fun old young => old.1 ≤ young.1) :
    (after window (past ++ [(now, cur)])).speedBps now =
      match (counted window now past).head? with
      | none => 0
      | some oldest => rate (cur - oldest.2) (max (now - oldest.1) 1000000) := by
  have samples : (after window (past ++ [(now, cur)])).samples = counted window now past ++ [(now, cur)] :=
    after_counted ordered
  have same : (after window (past ++ [(now, cur)])).window = window := by rw [after_eq]
  unfold speedBps
  rw [samples, same]
  cases held : counted window now past with
  | nil => rfl
  | cons oldest others =>
      obtain ⟨-, near⟩ : oldest ∈ past ∧ now - oldest.1 ≤ window := mem_counted (held ▸ List.mem_cons_self)
      have within : ¬ now - oldest.1 > window := Nat.not_lt.mpr near
      cases others with
      | nil => simp only [List.cons_append, List.nil_append, List.getLastD_nil, if_neg within, List.head?_cons]
      | cons second rest =>
          have last : (rest ++ [(now, cur)]).getLastD second = (now, cur) := by simp
          simp only [List.cons_append, last, if_neg within, List.head?_cons]

/-- At each tick the speed is measured over the ticks of the window. It is zero when no byte has arrived there, and the
remaining time fits the remaining bytes. -/
theorem speed_recent (id : Nat) (total : Option Nat) (window : Nat)
    (past : List (Nat × Nat)) (now cur : Nat) (future : List (Nat × Nat))
    (ordered : (past ++ (now, cur) :: future).Pairwise fun old young => old.1 ≤ young.1) :
    ∃ event, ((new window).emits id total (past ++ (now, cur) :: future))[past.length]? = some event ∧
      event.report = .progress id cur total ∧
      event.speedBps = (match (counted window now past).head? with
        | none => 0
        | some oldest => rate (cur - oldest.2) (max (now - oldest.1) 1000000)) ∧
      ((∀ tick ∈ past, now - tick.1 ≤ window → tick.2 = cur) → event.speedBps = 0 ∧ event.etaSecs = none) ∧
      ∀ eta, event.etaSecs = some eta → ∃ size, total = some size ∧ cur < size ∧
        eta * event.speedBps ≤ size - cur ∧ size - cur < (eta + 1) * event.speedBps := by
  have until_now : (past ++ [(now, cur)]).Pairwise fun old young => old.1 ≤ young.1 := by
    refine ordered.sublist ((List.Sublist.refl past).append ?_)
    exact List.singleton_sublist.mpr List.mem_cons_self
  obtain ⟨event, same⟩ : ∃ event, ((after window ([] ++ past)).emit id total now cur).1 = event := ⟨_, rfl⟩
  have emitted := emits_getElem? id total window [] past now cur future
  have report : event.report = .progress id cur total := same ▸ rfl
  have eta : event.etaSecs = total.bind fun size =>
      if event.speedBps = 0 ∨ cur ≥ size then none else some ((size - cur) / event.speedBps) := same ▸ rfl
  have speed : event.speedBps = match (counted window now past).head? with
      | none => 0
      | some oldest => rate (cur - oldest.2) (max (now - oldest.1) 1000000) := by
    have measured : (after window (past ++ [(now, cur)])).speedBps now = _ := speedBps_counted until_now
    rw [after_snoc] at measured
    exact same ▸ measured
  refine ⟨event, same ▸ emitted, report, speed, fun stalled => ?_, fun seconds told => ?_⟩
  · have stopped : event.speedBps = 0 := by
      rw [speed]
      cases held : (counted window now past).head? with
      | none => rfl
      | some oldest =>
          obtain ⟨earlier, near⟩ : oldest ∈ past ∧ now - oldest.1 ≤ window := mem_counted (List.mem_of_head? held)
          dsimp only
          rw [stalled oldest earlier near, Nat.sub_self, rate_zero]
    refine ⟨stopped, ?_⟩
    rw [eta, stopped]
    cases total <;> rfl
  · obtain ⟨size, known, given⟩ := Option.bind_eq_some_iff.mp (eta.symm.trans told)
    simp only [Option.ite_none_left_eq_some, not_or, Nat.not_le, ge_iff_le, Option.some.injEq] at given
    obtain ⟨⟨moving, missing⟩, rfl⟩ := given
    have positive : 0 < event.speedBps := Nat.pos_of_ne_zero moving
    exact ⟨size, known, missing, Nat.div_mul_le_self _ _,
      (Nat.div_lt_iff_lt_mul positive).mp (Nat.lt_succ_self _)⟩

/-- A megabyte in one second, with five megabytes in all. -/
theorem speed_recent_second : ∃ event,
    ((new 2000000000).emits 7 (some 5000000) [(0, 0), (1000000000, 1000000)])[1]? = some event ∧
      event.speedBps = 1000000 := by
  obtain ⟨event, emitted, -, speed, -⟩ :=
    speed_recent 7 (some 5000000) 2000000000 [(0, 0)] 1000000000 1000000 [] (by decide)
  have second : rate 1000000 1000000000 = 1000000 := by decide +kernel
  exact ⟨event, emitted, speed.trans second⟩

end SpeedMeter

end FastDownloader
