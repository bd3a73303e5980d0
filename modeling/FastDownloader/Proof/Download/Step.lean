/-
This file lists what one step of a call of `download` can do.
-/

import FastDownloader.Model.Download

namespace FastDownloader

open Foundation

variable {Text : Type} [SerdeJson Text] {io : FileIo} {hasher : Hasher} {call : DownloadCall} {disk : Disk Text}
  {download : Download} {event : DownloadEvent}

/-- These are the transitions of a call. -/
inductive DownloadMove (io : FileIo) (hasher : Hasher) (call : DownloadCall) (disk : Disk Text)
    (download : Download) : DownloadEvent → Disk Text → Download → Prop
  | cancelled (noMulti : ∀ job multi, download.pc ≠ .multi job multi)
      (noSingle : ∀ job single, download.pc ≠ .single job single) :
      DownloadMove io hasher call disk download .cancel disk { download with cancelled := true }
  | advanced (event : DownloadEvent) (pc : DownloadPc) (early : pc = .preparing ∨ pc = .probing) :
      DownloadMove io hasher call disk download event disk { download with pc := pc }
  | failed (event : DownloadEvent) (error : Error) :
      DownloadMove io hasher call disk download event disk { download with pc := .returned (.error error) }
  | probed (info : FileInfo) :
      DownloadMove io hasher call disk download (.probed (.ok info)) disk (download.onProbed call info)
  | multi (act : Act) (job : Job) (multi : Multi) (next : Disk Text × Multi) (at_pc : download.pc = .multi job multi)
      (taken : Multi.step io job (disk, multi) act = some next) :
      DownloadMove io hasher call disk download (.multi act) next.1 { download with pc := .multi job next.2 }
  | single (event : SingleEvent) (job : Job) (single : Single) (next : Disk Text × Single)
      (at_pc : download.pc = .single job single) (taken : Single.step io job (disk, single) event = some next) :
      DownloadMove io hasher call disk download (.single event) next.1 { download with pc := .single job next.2 }
  | joinedMulti (job : Job) (multi : Multi) (at_pc : download.pc = .multi job multi)
      (returned : multi.outcome = some (.ok ())) :
      DownloadMove io hasher call disk download .join disk { download with pc := .measuring job.info }
  | joinedSingle (job : Job) (single : Single) (at_pc : download.pc = .single job single)
      (returned : single.outcome = some (.ok ())) :
      DownloadMove io hasher call disk download .join disk { download with pc := .measuring job.info }
  | measured (info : FileInfo) (at_pc : download.pc = .measuring info) (present : disk.data.isSome = true) :
      DownloadMove io hasher call disk download (.measured true) disk (download.onMeasured call info disk.length)
  | verified (size : Nat) (expected : Checksum) (readable : Bool) (at_pc : download.pc = .verifying size expected)
      (matching : hasher.verifyFile (if readable then disk.contents else none) expected = .ok ()) :
      DownloadMove io hasher call disk download (.hashed readable) disk { download with pc := .returned (.ok size) }
  | corrupt (size : Nat) (expected : Checksum) (readable : Bool) (error : Error)
      (at_pc : download.pc = .verifying size expected) :
      DownloadMove io hasher call disk download (.hashed readable) disk { download with pc := .removing error }
  | removed (error : Error) (ok : Bool) (at_pc : download.pc = .removing error) :
      DownloadMove io hasher call disk download (.removed ok) (if ok then disk.removeData else disk)
        { download with pc := .deleting error }
  | deleted (error : Error) (ok : Bool) (at_pc : download.pc = .deleting error) :
      DownloadMove io hasher call disk download (.deleted ok) (if ok then disk.deleteState else disk)
        { download with pc := .returned (.error error) }

/-- Each step of a call is one of the listed transitions. -/
theorem Download.step_move {next : Disk Text × Download}
    (taken : Download.step io hasher call (disk, download) event = some next) :
    DownloadMove io hasher call disk download event next.1 next.2 := by
  unfold Download.step at taken
  dsimp only at taken
  split at taken
  · rename_i job multi act at_pc
    obtain ⟨after, stepped, rfl⟩ := Option.map_eq_some_iff.mp taken
    exact .multi act job multi after at_pc stepped
  · rename_i job single event at_pc
    obtain ⟨after, stepped, rfl⟩ := Option.map_eq_some_iff.mp taken
    exact .single event job single after at_pc stepped
  · cases taken
  · cases taken
  · rename_i noMulti noSingle
    cases taken
    exact .cancelled noMulti noSingle
  · split_ifs at taken <;> cases taken
    · exact .advanced _ _ (Or.inl rfl)
    · exact .failed _ _
  · split_ifs at taken <;> cases taken
    · exact .advanced _ _ (Or.inr rfl)
    · exact .failed _ _
  · cases taken
    exact .probed _
  · cases taken
    exact .failed _ _
  · split_ifs at taken
    cases taken
    exact .failed _ _
  · rename_i job multi at_pc
    obtain ⟨result, returned, rfl⟩ := Option.map_eq_some_iff.mp taken
    cases result with
    | ok => exact .joinedMulti job multi at_pc returned
    | error error => exact .failed _ error
  · rename_i job single at_pc
    obtain ⟨result, returned, rfl⟩ := Option.map_eq_some_iff.mp taken
    cases result with
    | ok => exact .joinedSingle job single at_pc returned
    | error error => exact .failed _ error
  · rename_i info readable at_pc
    split_ifs at taken with measurable <;> cases taken
    · obtain ⟨rfl, present⟩ := Bool.and_eq_true_iff.mp measurable
      exact .measured info at_pc present
    · exact .failed _ _
  · rename_i size expected readable at_pc
    split at taken <;> rename_i checked <;> cases taken
    · exact .verified size expected readable at_pc checked
    · exact .corrupt size expected readable _ at_pc
  · rename_i error ok at_pc
    cases taken
    exact .removed error ok at_pc
  · rename_i error ok at_pc
    cases taken
    exact .deleted error ok at_pc
  · cases taken

theorem Download.outcome_iff (download : Download) (result : Except Error Nat) :
    download.outcome = some result ↔ download.pc = .returned result := by
  unfold outcome
  cases download.pc <;> simp

/-- A multi-thread call takes one of its own steps, or its result is joined. -/
theorem Download.step_multi {job : Job} {multi : Multi} {next : Disk Text × Download}
    (at_pc : download.pc = .multi job multi)
    (taken : Download.step io hasher call (disk, download) event = some next) :
    (∃ act moved, Multi.step io job (disk, multi) act = some moved ∧
      next = (moved.1, { download with pc := .multi job moved.2 })) ∨
    (∃ result, multi.outcome = some result ∧ next = (disk, download.onJoin job.info result)) := by
  unfold Download.step at taken
  dsimp only at taken
  rw [at_pc] at taken
  cases event with
  | multi act =>
      obtain ⟨moved, stepped, rfl⟩ := Option.map_eq_some_iff.mp taken
      exact Or.inl ⟨act, moved, stepped, rfl⟩
  | join =>
      obtain ⟨result, returned, rfl⟩ := Option.map_eq_some_iff.mp taken
      exact Or.inr ⟨result, returned, rfl⟩
  | _ => cases taken

/-- The multi-thread call that is active in this call. -/
def Download.multi? (download : Download) : Option (Job × Multi) :=
  match download.pc with
  | .multi job multi => some (job, multi)
  | _ => none

/-- The single-thread call that is active in this call. -/
def Download.single? (download : Download) : Option (Job × Single) :=
  match download.pc with
  | .single job single => some (job, single)
  | _ => none

/-- The multi-thread path is taken only for a resource whose size is known and not zero. -/
theorem DownloadCall.size_of_canMulti {info : FileInfo} (parallel : call.canMulti info = true) :
    ∃ size, info.size = some size ∧ 0 < size := by
  simp only [canMulti, Bool.and_eq_true, Option.any_eq_true, decide_eq_true_eq] at parallel
  exact parallel.1.2

/-- The probe decides for a path, or its thread limit is not valid. -/
theorem Download.onProbed_cases (call : DownloadCall) (download : Download) (info : FileInfo) :
    (download.onProbed call info).pc = .panicked ∨
      (call.canMulti info = true ∧ ∃ job multi, job.info = info ∧
        multi = { Multi.start job with cancelled := download.cancelled } ∧
        (download.onProbed call info).pc = .multi job multi) ∨
      (call.canMulti info = false ∧ ∃ job, job.info = info ∧
        (download.onProbed call info).pc = .single job (Single.start download.cancelled)) := by
  unfold Download.onProbed
  dsimp only
  split_ifs with invalid parallel
  · exact Or.inl rfl
  · exact Or.inr (Or.inl ⟨parallel, _, _, rfl, rfl, rfl⟩)
  · exact Or.inr (Or.inr ⟨Bool.eq_false_iff.mpr parallel, _, rfl, rfl⟩)

/-- What holds of a multi-thread call that has just been probed, and is kept by its steps, is kept by the whole call. -/
theorem Download.multi_keeps {holds : Job → Multi → Prop} {next : Disk Text × Download}
    (starts : ∀ info, call.canMulti info = true → 1 ≤ call.cfg.maxThreads →
      holds ⟨info, call.requestedThreads, call.cfg⟩
        { Multi.start ⟨info, call.requestedThreads, call.cfg⟩ with cancelled := download.cancelled })
    (steps : ∀ act job multi after, event = .multi act → download.multi? = some (job, multi) → holds job multi →
      Multi.step io job (disk, multi) act = some after → holds job after.2)
    (held : ∀ path ∈ download.multi?, holds path.1 path.2)
    (taken : Download.step io hasher call (disk, download) event = some next) :
    ∀ path ∈ next.2.multi?, holds path.1 path.2 := by
  have move := step_move taken
  rcases next with ⟨after, next⟩
  dsimp only at move ⊢
  intro path member
  cases move with
  | cancelled => exact held path member
  | advanced _ pc early => rcases early with rfl | rfl <;> cases member
  | probed info =>
      unfold Download.onProbed at member
      dsimp only at member
      split_ifs at member with invalid parallel
      · cases member
      · obtain rfl := Option.some.inj member
        exact starts info parallel (Nat.le_of_not_lt invalid)
      · cases member
  | multi act job multi moved at_pc stepped =>
      obtain rfl := Option.some.inj member
      have path : download.multi? = some (job, multi) := by rw [multi?, at_pc]
      exact steps act job multi moved rfl path (held (job, multi) path) stepped
  | measured info =>
      unfold Download.onMeasured at member
      split at member
      · cases member
      · split at member <;> cases member
  | _ => cases member

/-- Without a checksum, a file of the expected size ends the call. -/
theorem Download.onMeasured_cases (call : DownloadCall) (download : Download) {info : FileInfo}
    (unchecked : call.task.expectedChecksum = none) (plain : info.digest = none) (size : Nat) :
    (∃ error, (download.onMeasured call info size).pc = .returned (.error error)) ∨
      ((∀ expected ∈ info.size, size = expected) ∧
        (download.onMeasured call info size).pc = .returned (.ok size)) := by
  have unverified : call.expectedChecksum info = none := by simp [DownloadCall.expectedChecksum, unchecked, plain]
  unfold Download.onMeasured
  split
  · exact Or.inl ⟨_, rfl⟩
  · rename_i fits
    rw [unverified]
    refine Or.inr ⟨fun expected known => ?_, rfl⟩
    by_contra different
    rw [Option.mem_def.mp known, Option.filter_some, if_pos (by simpa using Ne.symm different)] at fits
    cases fits

/-- The digests of the hash crates play no part where no checksum is in force. -/
def anyHasher : Hasher := ⟨fun _ => .replicate 16 0, fun _ => .replicate 32 0, fun _ => .replicate 64 0⟩

end FastDownloader
