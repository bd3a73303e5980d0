/-
This file proves that calls of `download` that lose no background write look like calls whose writes take effect at once.
-/

import FastDownloader.Proof.Download.Step
import FastDownloader.Proof.MultiThread.Landing
import FastDownloader.Proof.SingleThread.Attempt
import FastDownloader.Proof.SingleThread.Landing

namespace FastDownloader

open Foundation

namespace Download

/-- No background write is lost, and no handle is dropped before its background write has landed. -/
def Landing (download : Download) : DownloadEvent → Prop
  | .multi act => ∀ path ∈ download.multi?, path.2.Landing act
  | .single (.lose _) => False
  | _ => True

/-- These background writes are under way. -/
def pending (download : Download) : List (Nat × List UInt8) :=
  match download.pc with
  | .multi _ multi => multi.pending
  | .single _ single => single.handle.flight.toList
  | _ => []

variable {Text : Type} [SerdeJson Text] {hasher : Hasher} {call : DownloadCall} {event : DownloadEvent}
  {before shown after : Disk Text × Download}

/-- What holds of a call with background writes and of the call that it looks like. -/
structure Shadows (before shown : Disk Text × Download) : Prop where
  cancelled : shown.2.cancelled = before.2.cancelled
  path : match before.2.pc with
    | .multi job multi => ∃ shadow, shown.2.pc = .multi job shadow ∧
        Multi.Shadows job (before.1, multi) (shown.1, shadow)
    | .single job single => ∃ shadow, shown.2.pc = .single job shadow ∧
        Single.Shadows (before.1, single) (shown.1, shadow)
    | pc => shown.2.pc = pc ∧ shown.1.faded = before.1.faded

/-- A call outside of its paths looks like itself. -/
theorem shadows_outside {disk other : Disk Text} (seen : other.faded = disk.faded) (download : Download)
    (noMulti : ∀ job multi, download.pc ≠ .multi job multi)
    (noSingle : ∀ job single, download.pc ≠ .single job single) : Shadows (disk, download) (other, download) := by
  refine ⟨rfl, ?_⟩
  dsimp only
  split
  · rename_i job multi at_pc
    exact absurd at_pc (noMulti job multi)
  · rename_i job single at_pc
    exact absurd at_pc (noSingle job single)
  · exact ⟨rfl, seen⟩

/-- A call that has returned shows its own disk. -/
theorem Shadows.returned (shadows : Shadows before shown) {result : Except Error Nat}
    (ended : before.2.outcome = some result) : shown.1.faded = before.1.faded ∧ shown.2.outcome = some result := by
  have at_pc := (outcome_iff _ _).mp ended
  have path := shadows.path
  rw [at_pc] at path
  exact ⟨path.2, (outcome_iff _ _).mpr path.1⟩

/-- A call with nothing under way shows its own disk. -/
theorem Shadows.settled (shadows : Shadows before shown) (rests : before.2.pending = []) :
    shown.1.faded = before.1.faded := by
  obtain ⟨disk, download⟩ := before
  have path := shadows.path
  dsimp only at path
  unfold pending at rests
  cases at_pc : download.pc with
  | multi job multi =>
      rw [at_pc] at path rests
      obtain ⟨shadow, -, held⟩ := path
      exact held.resembles.settled (Or.inl rests)
  | single job single =>
      rw [at_pc] at path rests
      obtain ⟨shadow, -, held⟩ := path
      exact held.settled (Option.toList_eq_nil_iff.mp rests)
  | _ =>
      rw [at_pc] at path
      exact path.2

/-- The state file is the same. -/
theorem Shadows.dlstate (shadows : Shadows before shown) : shown.1.dlstate = before.1.dlstate := by
  have path := shadows.path
  split at path
  · obtain ⟨shadow, -, held⟩ := path
    exact held.dlstate
  · obtain ⟨shadow, -, held⟩ := path
    exact held.dlstate
  · have seen : shown.1.faded = (before.1.writeAll []).faded := path.2
    exact Disk.dlstate_seen seen

/-- A call looks like a call on the same path. -/
theorem Shadows.multi (shadows : Shadows before shown) {job : Job} {shadow : Multi}
    (present : shown.2.multi? = some (job, shadow)) :
    ∃ multi, before.2.multi? = some (job, multi) ∧ Multi.Shadows job (before.1, multi) (shown.1, shadow) := by
  have path := shadows.path
  unfold multi? at present ⊢
  split at path
  · rename_i at_pc
    obtain ⟨process, same, held⟩ := path
    rw [same] at present
    cases present
    rw [at_pc]
    exact ⟨_, rfl, held⟩
  · obtain ⟨process, same, -⟩ := path
    simp [same] at present
  · rename_i noMulti noSingle
    rw [path.1] at present
    split at present
    · rename_i job multi at_pc
      exact (noMulti job multi at_pc).elim
    · cases present

theorem Shadows.single (shadows : Shadows before shown) {job : Job} {shadow : Single}
    (present : shown.2.single? = some (job, shadow)) :
    ∃ single, before.2.single? = some (job, single) ∧ Single.Shadows (before.1, single) (shown.1, shadow) := by
  have path := shadows.path
  unfold single? at present ⊢
  split at path
  · obtain ⟨process, same, -⟩ := path
    simp [same] at present
  · rename_i at_pc
    obtain ⟨process, same, held⟩ := path
    rw [same] at present
    cases present
    rw [at_pc]
    exact ⟨_, rfl, held⟩
  · rename_i noMulti noSingle
    rw [path.1] at present
    split at present
    · rename_i job single at_pc
      exact (noSingle job single at_pc).elim
    · cases present

/-- An attempt looks at the file only when no write is under way. -/
theorem Shadows.stat (shadows : Shadows before shown) {readable : Bool}
    (taken : Download.step .background hasher call before (.single (.stat readable)) = some after) :
    shown.1.faded = before.1.faded := by
  obtain ⟨disk, download⟩ := before
  have path := shadows.path
  cases at_pc : download.pc with
  | single job single =>
      simp only [Download.step, at_pc, Option.map_eq_some_iff] at path taken
      obtain ⟨next, stepped, -⟩ := taken
      obtain ⟨shadow, -, held⟩ := path
      exact held.settled (held.parked (by simp [Single.hasHandle, (Single.step_stat stepped).1]))
  | _ => simp [Download.step, at_pc] at taken

/-- Outside of its paths a call is the call that it looks like. -/
theorem Shadows.outside (shadows : Shadows before shown) (noMulti : ∀ job multi, before.2.pc ≠ .multi job multi)
    (noSingle : ∀ job single, before.2.pc ≠ .single job single) :
    shown.2 = before.2 ∧ shown.1.faded = before.1.faded := by
  obtain ⟨disk, ⟨pc, cancelled⟩⟩ := before
  obtain ⟨other, ⟨shownPc, shownCancelled⟩⟩ := shown
  obtain ⟨same, path⟩ := shadows
  dsimp only at same path
  split at path
  · exact absurd rfl (noMulti _ _)
  · exact absurd rfl (noSingle _ _)
  · obtain ⟨at_pc, seen⟩ := path
    exact ⟨by rw [at_pc, same], seen⟩

/-- A path begins alike on both disks. -/
theorem onProbed_shadows {disk other : Disk Text} (seen : other.faded = disk.faded) (download : Download)
    (info : FileInfo) : Shadows (disk, download.onProbed call info) (other, download.onProbed call info) := by
  unfold onProbed
  split_ifs
  · exact shadows_outside seen _ (by rintro _ _ ⟨⟩) (by rintro _ _ ⟨⟩)
  · refine ⟨rfl, _, rfl, Multi.shadows_closed (Or.inl ?_) (by simp [Multi.start]) rfl seen⟩
    exact ⟨Or.inl rfl, rfl, rfl, rfl⟩
  · exact ⟨rfl, _, rfl, Single.start_shadows seen _⟩

/-- A path ends alike on both disks. -/
theorem onJoin_shadows {disk other : Disk Text} (seen : other.faded = disk.faded) {download shadow : Download}
    (cancelled : shadow.cancelled = download.cancelled) (info : FileInfo) (result : Except Error Unit) :
    Shadows (disk, download.onJoin info result) (other, shadow.onJoin info result) := by
  cases result with
  | ok => exact ⟨cancelled, rfl, seen⟩
  | error error => exact ⟨cancelled, rfl, seen⟩

/-- The final check reads only the length. -/
theorem onMeasured_shadows {disk other : Disk Text} (seen : other.faded = disk.faded) (download : Download)
    (info : FileInfo) (size : Nat) :
    Shadows (disk, download.onMeasured call info size) (other, download.onMeasured call info size) := by
  unfold onMeasured
  split
  · exact ⟨rfl, rfl, seen⟩
  · split
    · exact ⟨rfl, rfl, seen⟩
    · exact ⟨rfl, rfl, seen⟩

/-- Outside of its paths a call steps alike on both disks, whatever becomes of the writes. -/
theorem shadow_outside {disk other : Disk Text} (seen : other.faded = disk.faded) {download : Download}
    (noMulti : ∀ job multi, download.pc ≠ .multi job multi) (noSingle : ∀ job single, download.pc ≠ .single job single)
    (taken : Download.step .background hasher call (disk, download) event = some after) :
    ∃ next, Shadows after next ∧ Download.step .through hasher call (other, download) event = some next := by
  unfold Download.step at taken
  dsimp only at taken
  split at taken
  · rename_i job multi act at_pc
    exact absurd at_pc (noMulti job multi)
  · rename_i job single event at_pc
    exact absurd at_pc (noSingle job single)
  · cases taken
  · cases taken
  · cases taken
    refine ⟨(other, { download with cancelled := true }), shadows_outside seen _ noMulti noSingle, ?_⟩
    cases at_pc : download.pc with
    | multi job multi => exact absurd at_pc (noMulti job multi)
    | single job single => exact absurd at_pc (noSingle job single)
    | _ => simp [Download.step, at_pc]
  · rename_i ok at_pc
    split_ifs at taken with fine <;> cases taken <;>
      exact ⟨_, shadows_outside seen _ (by rintro _ _ ⟨⟩) (by rintro _ _ ⟨⟩),
        by simp only [Download.step, at_pc, fine, if_true, if_false, Bool.false_eq_true]⟩
  · rename_i ok at_pc
    split_ifs at taken with fine <;> cases taken <;>
      exact ⟨_, shadows_outside seen _ (by rintro _ _ ⟨⟩) (by rintro _ _ ⟨⟩),
        by simp only [Download.step, at_pc, fine, if_true, if_false, Bool.false_eq_true]⟩
  · rename_i info at_pc
    cases taken
    exact ⟨_, onProbed_shadows seen _ _, by simp only [Download.step, at_pc]⟩
  · rename_i error at_pc
    cases taken
    exact ⟨_, shadows_outside seen _ (by rintro _ _ ⟨⟩) (by rintro _ _ ⟨⟩), by simp only [Download.step, at_pc]⟩
  · rename_i at_pc
    split_ifs at taken with stopped
    cases taken
    exact ⟨_, shadows_outside seen _ (by rintro _ _ ⟨⟩) (by rintro _ _ ⟨⟩),
      by simp only [Download.step, at_pc, stopped, if_true]⟩
  · rename_i job multi at_pc
    exact absurd at_pc (noMulti job multi)
  · rename_i job single at_pc
    exact absurd at_pc (noSingle job single)
  · rename_i info readable at_pc
    have present : other.data.isSome = disk.data.isSome := Disk.isSome_seen seen
    have length : other.length = disk.length := Disk.length_seen seen
    split_ifs at taken with measurable <;> cases taken
    · exact ⟨_, onMeasured_shadows seen download info disk.length,
        by simp only [Download.step, at_pc, present, length, measurable, if_true]⟩
    · exact ⟨_, shadows_outside seen _ (by rintro _ _ ⟨⟩) (by rintro _ _ ⟨⟩),
        by simp only [Download.step, at_pc, present, measurable, if_false, Bool.false_eq_true]⟩
  · rename_i size expected readable at_pc
    have contents : other.contents = disk.contents := Disk.contents_seen seen
    split at taken <;> rename_i checked <;> cases taken <;>
      exact ⟨_, shadows_outside seen _ (by rintro _ _ ⟨⟩) (by rintro _ _ ⟨⟩),
        by simp only [Download.step, at_pc, contents, checked]⟩
  · rename_i error ok at_pc
    cases taken
    have removed : (if ok then other.removeData else other).faded = (if ok then disk.removeData else disk).faded := by
      cases ok
      · exact seen
      · have gone := congrArg Disk.removeData seen
        exact gone
    exact ⟨_, shadows_outside removed _ (by rintro _ _ ⟨⟩) (by rintro _ _ ⟨⟩), by simp only [Download.step, at_pc]⟩
  · rename_i error ok at_pc
    cases taken
    have deleted : (if ok then other.deleteState else other).faded = (if ok then disk.deleteState else disk).faded := by
      cases ok
      · exact seen
      · exact congrArg Disk.deleteState seen
    exact ⟨_, shadows_outside deleted _ (by rintro _ _ ⟨⟩) (by rintro _ _ ⟨⟩), by simp only [Download.step, at_pc]⟩
  · cases taken

/-- The multi-thread path of a call steps, or returns, as the path that it looks like. -/
theorem shadow_multi {disk other : Disk Text} {download shadow : Download}
    (cancelled : shadow.cancelled = download.cancelled) {job : Job} {multi process : Multi}
    (at_pc : download.pc = .multi job multi) (same : shadow.pc = .multi job process)
    (held : Multi.Shadows job (disk, multi) (other, process)) (landing : download.Landing event)
    (taken : Download.step .background hasher call (disk, download) event = some after) :
    ∃ next, Shadows after next ∧
      (next = (other, shadow) ∨ Download.step .through hasher call (other, shadow) event = some next) := by
  unfold Download.step at taken
  dsimp only at taken
  rw [at_pc] at taken
  cases event with
  | multi act =>
      obtain ⟨moved, stepped, rfl⟩ := Option.map_eq_some_iff.mp taken
      obtain ⟨next, kept, rfl | followed⟩ := held.step (landing (job, multi) (by rw [multi?, at_pc]; rfl)) stepped
      · exact ⟨(other, shadow), ⟨cancelled, _, same, kept⟩, Or.inl rfl⟩
      · refine ⟨(next.1, { shadow with pc := .multi job next.2 }), ⟨cancelled, _, rfl, kept⟩, Or.inr ?_⟩
        simp only [Download.step, same, followed, Option.map_some]
  | join =>
      obtain ⟨result, returned, rfl⟩ := Option.map_eq_some_iff.mp taken
      exact ⟨_, onJoin_shadows (held.returned returned) cancelled job.info result,
        Or.inr (by simp only [Download.step, same, held.outcome, returned, Option.map_some])⟩
  | _ => cases taken

/-- So does the single-thread path. -/
theorem shadow_single {disk other : Disk Text} {download shadow : Download}
    (cancelled : shadow.cancelled = download.cancelled) {job : Job} {single process : Single}
    (at_pc : download.pc = .single job single) (same : shadow.pc = .single job process)
    (held : Single.Shadows (disk, single) (other, process)) (landing : download.Landing event)
    (taken : Download.step .background hasher call (disk, download) event = some after) :
    ∃ next, Shadows after next ∧
      (next = (other, shadow) ∨ Download.step .through hasher call (other, shadow) event = some next) := by
  unfold Download.step at taken
  dsimp only at taken
  rw [at_pc] at taken
  cases event with
  | single act =>
      obtain ⟨moved, stepped, rfl⟩ := Option.map_eq_some_iff.mp taken
      obtain ⟨next, kept, rfl | followed⟩ := held.step (by rintro kept rfl; exact landing) stepped
      · exact ⟨(other, shadow), ⟨cancelled, _, same, kept⟩, Or.inl rfl⟩
      · refine ⟨(next.1, { shadow with pc := .single job next.2 }), ⟨cancelled, _, rfl, kept⟩, Or.inr ?_⟩
        simp only [Download.step, same, followed, Option.map_some]
  | join =>
      obtain ⟨result, returned, rfl⟩ := Option.map_eq_some_iff.mp taken
      exact ⟨_, onJoin_shadows (held.returned returned) cancelled job.info result,
        Or.inr (by simp only [Download.step, same, held.outcome, returned, Option.map_some])⟩
  | _ => cases taken

/-- Each step without a lost write is a step of the call that it looks like, or it does not show. -/
theorem Shadows.step (shadows : Shadows before shown) (landing : before.2.Landing event)
    (taken : Download.step .background hasher call before event = some after) :
    ∃ next, Shadows after next ∧ (next = shown ∨ Download.step .through hasher call shown event = some next) := by
  obtain ⟨disk, download⟩ := before
  obtain ⟨other, shadow⟩ := shown
  have path := shadows.path
  dsimp only at path
  split at path
  · rename_i job multi at_pc
    obtain ⟨process, same, held⟩ := path
    exact shadow_multi shadows.cancelled at_pc same held landing taken
  · rename_i job single at_pc
    obtain ⟨process, same, held⟩ := path
    exact shadow_single shadows.cancelled at_pc same held landing taken
  · rename_i noMulti noSingle
    obtain ⟨rfl, seen⟩ := shadows.outside noMulti noSingle
    obtain ⟨next, kept, followed⟩ := shadow_outside seen noMulti noSingle taken
    exact ⟨next, kept, Or.inr followed⟩

/-- No call of a session loses a write, and none is killed while one is under way. -/
def LandingMove (session : Session (Disk Text) Download DownloadCall) : Move DownloadCall DownloadEvent → Prop
  | .step event => ∀ process ∈ session.active, process.2.Landing event
  | .kill => ∀ process ∈ session.active, process.2.pending = []
  | _ => True

instance (download : Download) : ∀ event, Decidable (download.Landing event)
  | .multi act => inferInstanceAs (Decidable (∀ path ∈ download.multi?, path.2.Landing act))
  | .single (.lose _) => .isFalse id
  | .single .cancel | .single .check | .single (.stat _) | .single (.reply _) | .single (.created _)
  | .single (.opened _) | .single (.chunk _) | .single .streamEnd | .single .streamError | .single .wrote
  | .single (.writeFailed _) | .single .land | .single (.flushed _) | .single (.synced _) | .single (.closed _)
  | .single (.measured _) | .single .slept | .single .interrupted | .cancel | .parsed _ | .prepared _ | .probed _
  | .interrupted | .join | .measured _ | .hashed _ | .removed _ | .deleted _ => .isTrue trivial

instance (session : Session (Disk Text) Download DownloadCall) : ∀ move, Decidable (LandingMove session move)
  | .step event => inferInstanceAs (Decidable (∀ process ∈ session.active, process.2.Landing event))
  | .kill => inferInstanceAs (Decidable (∀ process ∈ session.active, process.2.pending = []))
  | .start _ | .finish => .isTrue trivial

end Download

end FastDownloader
