/-
This file shows that a single-thread call whose token is set sends at most one more request and comes to its end.
-/

import FastDownloader.Proof.SingleThread.Step
import FastDownloader.Proof.Worker.Cancel

namespace FastDownloader

open Foundation

namespace Single

variable {Text : Type} {io : FileIo} {job : Job} {disk : Disk Text} {single : Single} {event : SingleEvent}
  {next : Disk Text × Single}

/-- The control points that are left once the token is set. -/
def windDown (single : Single) : Nat :=
  match single.pc with
  | .looking => 12
  | .sent _ _ => 11
  | .creating _ _ => 10
  | .opening _ => 9
  | .writing _ _ => 8
  | .flushing _ => 7
  | .syncing _ => 6
  | .streaming _ => 5
  | .closing _ _ => 4
  | .measuring _ => 3
  | .waiting => 2
  | .head => 1
  | .returned _ | .panicked => 0

def cancelRank (single : Single) : Nat := 2 * single.windDown + single.handle.flights

/-- The request in flight, or the one that an attempt sends after it has read its token. -/
def requests (single : Single) : Nat :=
  match single.pc with
  | .looking | .sent _ _ => 1
  | _ => 0

def ended (single : Single) : Bool :=
  match single.pc with
  | .returned _ | .panicked => true
  | _ => false

/-- A call that uses its handle has opened it. -/
def Usable (single : Single) : Prop := single.hasHandle = true → single.handle ≠ .closed

/-- What one step of a cancelled call does. -/
structure Winds (single : Single) (event : SingleEvent) (next : Single) : Prop where
  falls : next.cancelRank < single.cancelRank ∨ (event = .cancel ∧ next.cancelRank ≤ single.cancelRank)
  silent : next.requests ≤ single.requests
  kept : single.cancelled = true → next.cancelled = true

theorem fail_rest (cfg : DownloaderConfig) (single : Single) (error : Error) :
    (single.fail cfg error).windDown ≤ 2 ∧ (single.fail cfg error).requests = 0 ∧
      (single.fail cfg error).hasHandle = false ∧ (single.fail cfg error).handle = single.handle ∧
      (single.fail cfg error).cancelled = single.cancelled := by
  unfold fail
  dsimp only
  split_ifs
  · exact ⟨Nat.zero_le 2, rfl, rfl, rfl, rfl⟩
  · exact ⟨Nat.zero_le 2, rfl, rfl, rfl, rfl⟩
  · exact ⟨Nat.le_refl 2, rfl, rfl, rfl, rfl⟩

/-- A jump whose handle carries at most one write more falls when the control point is nearer to the end. -/
theorem Winds.jump {next : Single} (nearer : next.windDown < single.windDown)
    (light : next.handle.flights ≤ single.handle.flights + 1) (silent : next.requests = 0)
    (kept : next.cancelled = single.cancelled) : Winds single event next where
  falls := by
    refine Or.inl ?_
    simp only [cancelRank]
    omega
  silent := silent ▸ Nat.zero_le _
  kept cancelled := kept.trans cancelled

theorem Winds.fail (cfg : DownloaderConfig) (error : Error) (high : 3 ≤ single.windDown) :
    Winds single event (single.fail cfg error) := by
  obtain ⟨low, silent, _, handle, kept⟩ := fail_rest cfg single error
  exact .jump (by omega) (by rw [handle]; omega) silent kept

theorem onStat_winds (job : Job) (existing : Nat) (at_pc : single.pc = .looking) :
    Winds single event (single.onStat job existing) := by
  unfold onStat
  split_ifs
  · exact .jump (by simp [windDown, at_pc]) (Nat.le_succ _) rfl rfl
  · refine ⟨Or.inl ?_, by simp [requests, at_pc], id⟩
    simp [cancelRank, windDown, at_pc]

theorem onClosed_winds (cfg : DownloaderConfig) (total : Option Nat) (result : Except Error Unit)
    (at_pc : single.pc = .closing total result) : Winds single event (single.onClosed cfg total result) := by
  have high : single.windDown = 4 := by simp [windDown, at_pc]
  have closed : Handle.flights .closed = 0 := rfl
  unfold onClosed
  dsimp only
  split
  · obtain ⟨low, silent, _, handle, kept⟩ := fail_rest cfg { single with handle := .closed } _
    exact .jump (by omega) (by rw [handle, closed]; omega) silent kept
  · exact .jump (by rw [high]; simp [windDown]) (by rw [closed]; omega) rfl rfl
  · exact .jump (by rw [high]; simp [windDown]) (by rw [closed]; omega) rfl rfl

/-- Each step of a cancelled call brings it nearer to its end, makes no further request due, and keeps the token set. -/
theorem step_winds (cancelled : single.cancelled = true) (taken : Single.step io job (disk, single) event = some next) :
    Winds single event next.2 := by
  have same : ∀ {pc : SinglePc}, ({ single with pc := pc } : Single).windDown < single.windDown →
      ({ single with pc := pc } : Single).requests = 0 → Winds single event { single with pc := pc } :=
    fun nearer silent => .jump nearer (Nat.le_succ _) silent rfl
  have failed : 3 ≤ single.windDown → ∀ error, Winds single event (single.fail job.cfg error) :=
    fun high error => .fail _ error high
  have light := Worker.flights_le
  obtain ⟨after, moved⟩ := next
  change Winds single event moved
  unfold Single.step at taken
  dsimp only at taken
  split at taken
  · cases taken
    exact ⟨Or.inr ⟨rfl, Nat.le_refl _⟩, Nat.le_refl _, fun _ => rfl⟩
  · split at taken <;> rename_i held <;> cases taken
    refine ⟨Or.inl ?_, Nat.le_refl _, id⟩
    simp [cancelRank, windDown, held, Handle.flights, Handle.flight]
  · split at taken <;> rename_i held <;> cases taken
    refine ⟨Or.inl ?_, Nat.le_refl _, id⟩
    simp [cancelRank, windDown, held, Handle.flights, Handle.flight]
  · rename_i at_pc
    cases taken
    unfold onHead
    rw [if_pos cancelled]
    exact same (by simp [windDown, at_pc]) rfl
  · rename_i at_pc
    cases taken
    exact onStat_winds job _ at_pc
  · rename_i at_pc
    cases taken
    exact failed (by simp [windDown, at_pc]) _
  · rename_i at_pc
    cases taken
    unfold onReply
    split
    · exact same (by simp [windDown, at_pc]) rfl
    · exact same (by simp [windDown, at_pc]) rfl
    · exact same (by simp [windDown, at_pc]) rfl
    · split_ifs
      · exact same (by simp [windDown, at_pc]) rfl
      · exact failed (by simp [windDown, at_pc]) _
  · rename_i at_pc
    split_ifs at taken
    cases taken
    exact same (by simp [windDown, at_pc]) rfl
  · rename_i at_pc
    split_ifs at taken <;> cases taken
    · exact same (by simp [windDown, at_pc]) rfl
    · exact failed (by simp [windDown, at_pc]) _
  · rename_i at_pc
    split_ifs at taken <;> cases taken
    · exact .jump (by simp [windDown, at_pc]) (Nat.le_trans (light _) (Nat.le_add_left _ _)) rfl rfl
    · exact failed (by simp [windDown, at_pc]) _
  · rename_i at_pc
    cases taken
    unfold onChunk
    dsimp only
    rw [if_pos cancelled]
    exact same (by simp [windDown, at_pc]) rfl
  · rename_i at_pc
    split_ifs at taken
    cases taken
    exact same (by simp [windDown, at_pc]) rfl
  · rename_i at_pc
    cases taken
    exact same (by simp [windDown, at_pc]) rfl
  · rename_i at_pc
    split at taken
    · cases taken
      unfold onWrote
      dsimp only
      split_ifs <;> exact same (by simp [windDown, at_pc]) rfl
    · cases taken
      unfold onWrote
      dsimp only
      split_ifs <;>
        exact .jump (by simp [windDown, at_pc]) (Nat.le_trans (light _) (Nat.le_add_left _ _)) rfl rfl
    · cases taken
  · rename_i at_pc
    split at taken
    · cases taken
      exact same (by simp [windDown, at_pc]) rfl
    · cases taken
      exact same (by simp [windDown, at_pc]) rfl
    · cases taken
  · rename_i at_pc
    split_ifs at taken <;> cases taken
    · unfold onFlushed
      split_ifs <;> exact same (by simp [windDown, at_pc]) rfl
    · exact same (by simp [windDown, at_pc]) rfl
  · rename_i at_pc
    split_ifs at taken <;> cases taken
    · exact same (by simp [windDown, at_pc]) rfl
    · exact same (by simp [windDown, at_pc]) rfl
  · rename_i at_pc
    split at taken <;> cases taken
    exact onClosed_winds _ _ _ at_pc
  · rename_i at_pc
    split_ifs at taken <;> cases taken
    · unfold onMeasured
      split_ifs
      · exact failed (by simp [windDown, at_pc]) _
      · exact same (by simp [windDown, at_pc]) rfl
    · exact failed (by simp [windDown, at_pc]) _
  · rename_i at_pc
    cases taken
    exact same (by simp [windDown, at_pc]) rfl
  · rename_i at_pc
    split_ifs at taken
    cases taken
    exact same (by simp [windDown, at_pc]) rfl
  · cases taken

/-- A handle is opened before it is used. -/
theorem step_usable (opened : single.Usable) (taken : Single.step io job (disk, single) event = some next) :
    next.2.Usable := by
  have shut : ∀ {after : Single}, after.hasHandle = false → after.Usable := by
    intro after shut used
    cases shut.symm.trans used
  have failed : ∀ error, (single.fail job.cfg error).hasHandle = false :=
    fun error => (fail_rest job.cfg single error).2.2.1
  have move := step_move taken
  obtain ⟨after, moved⟩ := next
  dsimp only at move ⊢
  cases move with
  | cancelled => exact opened
  | landed | lost => exact fun _ => by rintro ⟨⟩
  | stopped | began => exact shut rfl
  | looked readable at_pc =>
      unfold onStat
      split_ifs <;> exact shut rfl
  | answered existing resume response at_pc =>
      unfold onReply
      split
      · exact shut rfl
      · exact shut rfl
      · exact shut rfl
      · split_ifs
        · exact shut rfl
        · exact shut (failed _)
  | created | slept | interrupted => exact shut rfl
  | opened => exact fun _ => by rintro ⟨⟩
  | chunk stream size at_pc =>
      have used : single.hasHandle = true := by simp [hasHandle, at_pc]
      unfold onChunk
      dsimp only
      split_ifs <;> exact fun _ => opened used
  | ended stream at_pc | torn stream bytes kept mode at_pc | synced stream at_pc =>
      exact fun _ => opened (by simp [hasHandle, at_pc])
  | wrote stream bytes mode at_pc =>
      have used : single.hasHandle = true := by simp [hasHandle, at_pc]
      unfold onWrote
      dsimp only
      split_ifs <;> exact fun _ => opened used
  | passed =>
      unfold onWrote
      dsimp only
      split_ifs <;> exact fun _ => by rintro ⟨⟩
  | flushed stream at_pc =>
      have used : single.hasHandle = true := by simp [hasHandle, at_pc]
      unfold onFlushed
      split_ifs <;> exact fun _ => opened used
  | broken event total error fault used => exact fun _ => opened used
  | closed total result synced at_pc settled =>
      unfold onClosed
      dsimp only
      split
      · exact shut (fail_rest job.cfg { single with handle := .closed } _).2.2.1
      · exact shut rfl
      · exact shut rfl
  | measured total at_pc =>
      unfold onMeasured
      split_ifs
      · exact shut (failed _)
      · exact shut rfl
  | failed event error => exact shut (failed error)

/-- A call that has not ended can do something that brings it nearer to its end once it is cancelled. -/
theorem Usable.moves (opened : single.Usable) (pending : single.ended = false) :
    ∃ event, event ≠ .cancel ∧ (Single.step io job (disk, single) event).isSome = true := by
  cases at_pc : single.pc with
  | head => exact ⟨.check, by rintro ⟨⟩, by simp [Single.step, at_pc]⟩
  | looking => exact ⟨.stat true, by rintro ⟨⟩, by simp [Single.step, at_pc]⟩
  | sent existing resume => exact ⟨.reply none, by rintro ⟨⟩, by simp [Single.step, at_pc]⟩
  | creating total body => exact ⟨.created true, by rintro ⟨⟩, by simp [Single.step, at_pc]⟩
  | opening stream => exact ⟨.opened true, by rintro ⟨⟩, by simp [Single.step, at_pc]⟩
  | streaming stream => exact ⟨.chunk 0, by rintro ⟨⟩, by simp [Single.step, at_pc]⟩
  | syncing stream => exact ⟨.synced true, by rintro ⟨⟩, by simp [Single.step, at_pc]⟩
  | measuring total => exact ⟨.measured true, by rintro ⟨⟩, by simp [Single.step, at_pc]⟩
  | waiting => exact ⟨.slept, by rintro ⟨⟩, by simp [Single.step, at_pc]⟩
  | returned result | panicked => simp [ended, at_pc] at pending
  | writing stream bytes =>
      have used : single.hasHandle = true := by simp [hasHandle, at_pc]
      cases io with
      | through => exact ⟨.wrote, by rintro ⟨⟩, by simp [Single.step, at_pc]⟩
      | background =>
          cases carried : single.handle with
          | closed => exact absurd carried (opened used)
          | idle => exact ⟨.wrote, by rintro ⟨⟩, by simp [Single.step, at_pc, carried]⟩
          | failed => exact ⟨.writeFailed 0, by rintro ⟨⟩, by simp [Single.step, at_pc, carried]⟩
          | busy offset bytes => exact ⟨.land, by rintro ⟨⟩, by simp [Single.step, at_pc, carried]⟩
  | flushing stream =>
      have used : single.hasHandle = true := by simp [hasHandle, at_pc]
      cases io with
      | through => exact ⟨.flushed true, by rintro ⟨⟩, by simp [Single.step, at_pc, Worker.flushReports]⟩
      | background =>
          cases carried : single.handle with
          | closed => exact absurd carried (opened used)
          | idle => exact ⟨.flushed true, by rintro ⟨⟩, by simp [Single.step, at_pc, carried, Worker.flushReports]⟩
          | failed => exact ⟨.flushed false, by rintro ⟨⟩, by simp [Single.step, at_pc, carried, Worker.flushReports]⟩
          | busy offset bytes => exact ⟨.land, by rintro ⟨⟩, by simp [Single.step, at_pc, carried]⟩
  | closing total result =>
      cases carried : single.handle with
      | busy offset bytes => exact ⟨.land, by rintro ⟨⟩, by simp [Single.step, at_pc, carried]⟩
      | closed | idle | failed =>
          exact ⟨.closed true, by rintro ⟨⟩, by cases io <;> simp [Single.step, at_pc, carried, settled]⟩

theorem start_usable (cancelled : Bool) : (Single.start cancelled).Usable := by
  rintro ⟨⟩

end Single

end FastDownloader
