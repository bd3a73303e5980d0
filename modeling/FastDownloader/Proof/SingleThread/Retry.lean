/-
This file proves that a single-thread call comes to its end whatever fails on the way, and that it succeeds exactly when
it has an attempt left.
-/

import FastDownloader.Foundation.Slots
import FastDownloader.Proof.SingleThread.Faultless
import FastDownloader.Proof.Worker.Requests

namespace FastDownloader

open Foundation

/-- These events end an attempt of a call and let it start again. -/
def SingleEvent.failed : SingleEvent → Bool
  | .reply (some response) => !isSuccess response.status
  | event => event.fault

/-- At these points of a call the body is transferred into an open file. -/
def SinglePc.transfers : SinglePc → Bool
  | .streaming _ | .writing _ _ | .flushing _ | .syncing _ => true
  | _ => false

namespace Single

/-- A server that does not refuse sends the whole resource or the asked part of it. Anything may fail but a background
write. -/
def Retriable (content : List UInt8) (single : Single) : SingleEvent → Prop
  | .reply (some response) => isSuccess response.status = false ∨
      ((response.status = 200 ∨ response.status = 206) ∧ single.Honest content (.reply (some response)))
  | .chunk size => size ≤ single.unread
  | .cancel | .lose _ => False
  | _ => True

/-- The call has failed only if it has used up its attempts. -/
def Lasts (cfg : DownloaderConfig) (single : Single) : Prop :=
  match single.pc with
  | .closing _ (.error error) => single.attempt < cfg.budget ∧ error.isCancelled = false
  | .returned (.error error) => single.attempt = cfg.budget ∧ ∃ source, error = .retryExhausted cfg.budget source
  | .panicked => False
  | _ => single.attempt < cfg.budget

/-- A failure counts at once, but the attempt ends only when its file is closed. -/
def met (single : Single) : Nat :=
  match single.pc with
  | .closing _ (.error _) => single.attempt + 1
  | _ => single.attempt

/-- A wait goes before the next look at the file. -/
def pace (content : List UInt8) (single : Single) : Nat :=
  match single.pc with
  | .waiting => single.handle.flights + 8 * content.length + 42
  | _ => single.rank content

/-- Each attempt that is left can bring the whole content. -/
def toil (content : List UInt8) (cfg : DownloaderConfig) (single : Single) : Nat :=
  (cfg.budget - single.attempt) * (8 * content.length + 64) + single.pace content

/-- What a step does to a call that tries. -/
structure Tries (content : List UInt8) (cfg : DownloaderConfig) (single : Single) (event : SingleEvent)
    (next : Single) : Prop where
  lasts : next.Lasts cfg
  calm : next.cancelled = false
  opened : next.Opened
  falls : next.toil content cfg < single.toil content cfg ∨
    (event = .chunk 0 ∧ next.toil content cfg ≤ single.toil content cfg)
  counted : next.met = single.met + event.failed.toNat

variable {Text : Type} {content : List UInt8} {io : FileIo} {job : Job} {cfg : DownloaderConfig} {disk : Disk Text}
  {single next : Single} {event : SingleEvent}

/-- The attempt of a call that has not returned is not the last one. -/
theorem Lasts.left (lasts : single.Lasts cfg) (pending : single.outcome = none) : single.attempt < cfg.budget := by
  unfold Lasts at lasts
  split at lasts
  next => exact lasts.1
  next at_pc => simp [outcome, at_pc] at pending
  next => cases lasts
  next => exact lasts

theorem Lasts.onward (lasts : single.Lasts cfg) (onward : single.onward = true) : single.attempt < cfg.budget := by
  unfold Lasts at lasts
  split at lasts
  next => exact lasts.1
  next at_pc => simp [Single.onward, at_pc] at onward
  next => cases lasts
  next => exact lasts

theorem lasts_of_onward (onward : single.onward = true) (left : single.attempt < cfg.budget) : single.Lasts cfg := by
  unfold Lasts
  split
  next at_pc => simp [Single.onward, at_pc] at onward
  next at_pc => simp [Single.onward, at_pc] at onward
  next at_pc => simp [Single.onward, at_pc] at onward
  next => exact left

theorem met_of_onward (onward : single.onward = true) : single.met = single.attempt := by
  unfold met
  split
  next at_pc => simp [Single.onward, at_pc] at onward
  next => rfl

theorem pace_of_onward (onward : single.onward = true) : single.pace content = single.rank content := by
  unfold pace
  split
  next at_pc => simp [Single.onward, at_pc] at onward
  next => rfl

/-- A step that keeps the attempt falls when the pace does. -/
theorem Tries.go (attempt : next.attempt = single.attempt) (lasts : next.Lasts cfg) (calm : next.cancelled = false)
    (opened : next.Opened) (counted : next.met = single.met + event.failed.toNat)
    (falls : next.pace content < single.pace content ∨
      (event = .chunk 0 ∧ next.pace content ≤ single.pace content)) : Tries content cfg single event next := by
  refine ⟨lasts, calm, opened, ?_, counted⟩
  unfold toil
  rw [attempt]
  rcases falls with lower | ⟨empty, level⟩
  · exact Or.inl (by omega)
  · exact Or.inr ⟨empty, by omega⟩

/-- A failure uses up one attempt, and the last one ends the call. -/
theorem fail_tries (left : single.attempt < cfg.budget) (base : Single) (attempt : base.attempt = single.attempt)
    (calm : base.cancelled = false) (intact : base.handle ≠ .failed) (light : base.handle.flights = 0) {error : Error}
    (ordinary : error.isCancelled = false) (counted : single.met + event.failed.toNat = single.attempt + 1) :
    Tries content cfg single event (base.fail cfg error) := by
  obtain ⟨spare, split⟩ : ∃ spare, cfg.budget - single.attempt = spare + 1 :=
    ⟨cfg.budget - single.attempt - 1, by omega⟩
  have rest : cfg.budget - (base.attempt + 1) = spare := by omega
  have before : single.toil content cfg = (spare + 1) * (8 * content.length + 64) + single.pace content := by
    rw [toil, split]
  rw [Nat.succ_mul] at before
  unfold fail
  rw [ordinary, if_neg Bool.false_ne_true]
  dsimp only
  split_ifs with last
  · have all : base.attempt + 1 = cfg.budget := by
      unfold DownloaderConfig.budget at left ⊢
      omega
    refine ⟨⟨all, error, by rw [all]⟩, calm, ⟨intact, by rintro ⟨⟩⟩, Or.inl ?_, ?_⟩
    · rw [before]
      generalize single.pace content = slow
      simp only [toil, pace, rank, light, rest]
      omega
    · rw [counted, ← attempt]
      rfl
  · have more : base.attempt + 1 < cfg.budget := by
      unfold DownloaderConfig.budget
      omega
    refine ⟨more, calm, ⟨intact, by rintro ⟨⟩⟩, Or.inl ?_, ?_⟩
    · -- One attempt pays for the wait and for the whole content.
      rw [before]
      generalize single.pace content = slow
      simp only [toil, pace, light, rest]
      omega
    · rw [counted, ← attempt]
      rfl

/-- A failure without an open file ends the attempt at once. -/
theorem failed_shut (lasts : single.Lasts job.cfg) (calm : single.cancelled = false) (opened : single.Opened)
    (parked : single.hasHandle = false → single.handle.flight = none) (failed : event.failed = true)
    (bare : single.hasHandle = false) (pending : single.outcome = none) {error : Error}
    (ordinary : error.isCancelled = false) : Tries content job.cfg single event (single.fail job.cfg error) := by
  have met : single.met = single.attempt := by
    unfold met
    split
    next at_pc => simp [hasHandle, at_pc] at bare
    next => rfl
  refine fail_tries (lasts.left pending) single rfl calm opened.1 ?_ ordinary ?_
  · rw [Handle.flights, parked bare]
    rfl
  · rw [met, failed, Bool.toNat_true]

/-- A failure of a transfer closes the file first. -/
theorem failed_closing (lasts : single.Lasts job.cfg) (calm : single.cancelled = false) (opened : single.Opened)
    (failed : event.failed = true) (transfers : single.pc.transfers = true) (total : Option Nat) {error : Error}
    (ordinary : error.isCancelled = false) :
    Tries content job.cfg single event { single with pc := .closing total (.error error) } := by
  have cut : single.hasHandle = true → single.onward = true → single.outcome = none →
      single.handle.flights + 10 < single.rank content →
      Tries content job.cfg single event { single with pc := .closing total (.error error) } := by
    intro used onward pending nearer
    refine .go rfl ⟨lasts.left pending, ordinary⟩ calm ⟨opened.1, fun _ => opened.2 used⟩ ?_ (Or.inl ?_)
    · rw [met_of_onward onward, failed, Bool.toNat_true]
      rfl
    · rw [pace_of_onward onward]
      exact nearer
  cases at_pc : single.pc with
  | streaming | writing | flushing | syncing =>
      exact cut (by simp [hasHandle, at_pc]) (by simp [Single.onward, at_pc]) (by simp [outcome, at_pc])
        (by simp only [rank, at_pc]; omega)
  | _ => simp [SinglePc.transfers, at_pc] at transfers

/-- A failure closes the file first when one is open. -/
theorem step_failed (lasts : single.Lasts job.cfg) (calm : single.cancelled = false) (opened : single.Opened)
    (parked : single.hasHandle = false → single.handle.flight = none) (failed : event.failed = true)
    {next : Disk Text × Single} (taken : Single.step io job (disk, single) event = some next) :
    Tries content job.cfg single event next.2 := by
  have shut : single.hasHandle = false → single.outcome = none → ∀ error : Error, error.isCancelled = false →
      Tries content job.cfg single event (single.fail job.cfg error) :=
    fun bare pending error ordinary => failed_shut lasts calm opened parked failed bare pending ordinary
  have close : single.pc.transfers = true → ∀ (total : Option Nat) (error : Error), error.isCancelled = false →
      Tries content job.cfg single event { single with pc := .closing total (.error error) } :=
    fun transfers total error ordinary => failed_closing lasts calm opened failed transfers total ordinary
  obtain ⟨after, moved⟩ := next
  dsimp only
  cases event with
  | reply answer =>
      cases at_pc : single.pc with
      | sent existing resume =>
          have ends := shut (by simp [hasHandle, at_pc]) (by simp [outcome, at_pc])
          cases answer with
          | none =>
              simp only [Single.step, at_pc, Option.some.injEq, Prod.mk.injEq] at taken
              exact taken.2 ▸ ends .http rfl
          | some response =>
              simp only [Single.step, at_pc, Option.some.injEq, Prod.mk.injEq] at taken
              have refused : isSuccess response.status = false := by simpa [SingleEvent.failed] using failed
              have replied : single.onReply job existing resume response =
                  single.fail job.cfg (.status response.status) := by
                unfold onReply
                split <;> rename_i status
                · simp [status, isSuccess] at refused
                · simp [status, isSuccess] at refused
                · simp [status, isSuccess] at refused
                · rw [if_neg (by simp [refused])]
              exact taken.2 ▸ replied ▸ ends (.status response.status) rfl
      | _ => cases answer <;> simp [Single.step, at_pc] at taken
  | created ok =>
      obtain rfl : ok = false := by cases ok <;> simp_all [SingleEvent.failed, SingleEvent.fault]
      cases at_pc : single.pc <;> simp [Single.step, at_pc] at taken
      exact taken.2 ▸ shut (by simp [hasHandle, at_pc]) (by simp [outcome, at_pc]) .io rfl
  | opened ok =>
      obtain rfl : ok = false := by cases ok <;> simp_all [SingleEvent.failed, SingleEvent.fault]
      cases at_pc : single.pc <;> simp [Single.step, at_pc] at taken
      exact taken.2 ▸ shut (by simp [hasHandle, at_pc]) (by simp [outcome, at_pc]) .io rfl
  | measured ok =>
      obtain rfl : ok = false := by cases ok <;> simp_all [SingleEvent.failed, SingleEvent.fault]
      cases at_pc : single.pc <;> simp [Single.step, at_pc] at taken
      exact taken.2 ▸ shut (by simp [hasHandle, at_pc]) (by simp [outcome, at_pc]) .io rfl
  | flushed ok =>
      obtain rfl : ok = false := by cases ok <;> simp_all [SingleEvent.failed, SingleEvent.fault]
      cases at_pc : single.pc <;> simp [Single.step, at_pc] at taken
      exact taken.2.2 ▸ close (by rw [at_pc]; rfl) _ .io rfl
  | synced ok =>
      obtain rfl : ok = false := by cases ok <;> simp_all [SingleEvent.failed, SingleEvent.fault]
      cases at_pc : single.pc <;> simp [Single.step, at_pc] at taken
      exact taken.2 ▸ close (by rw [at_pc]; rfl) _ .io rfl
  | streamError =>
      cases at_pc : single.pc <;> simp [Single.step, at_pc] at taken
      exact taken.2 ▸ close (by rw [at_pc]; rfl) _ _ (by rw [calm]; rfl)
  | writeFailed kept =>
      cases at_pc : single.pc <;> simp [Single.step, at_pc] at taken
      split at taken <;> simp at taken
      · exact taken.2 ▸ close (by rw [at_pc]; rfl) _ .io rfl
      · exact taken.2 ▸ close (by rw [at_pc]; rfl) _ .io rfl
  | _ => cases failed

/-- A step that is no failure of a call on its way to success meets no fault. -/
theorem faultless_of_retriable (onward : single.onward = true) (calm : single.cancelled = false)
    (retriable : single.Retriable content event) (fine : event.failed = false) {next : Disk Text × Single}
    (taken : Single.step io job (disk, single) event = some next) :
    single.Faultless content (fun _ _ => True) event := by
  cases event with
  | reply answer =>
      cases answer with
      | none => cases fine
      | some response =>
          obtain ⟨existing, resume, at_pc, -⟩ := step_reply taken
          simp [Single.onward, at_pc] at onward
  | stat ok =>
      have at_pc := (step_stat taken).1
      simp [Single.onward, at_pc] at onward
  | created ok | opened ok | flushed ok | synced ok | measured ok =>
      cases ok with
      | false => cases fine
      | true => rfl
  | streamError | writeFailed => cases fine
  | cancel | lose => cases retriable
  | chunk => exact retriable
  | check | streamEnd | wrote | land | closed => trivial
  | slept =>
      cases at_pc : single.pc <;> simp [Single.step, at_pc] at taken
      simp [Single.onward, at_pc] at onward
  | interrupted => cases at_pc : single.pc <;> simp [Single.step, at_pc, calm] at taken

/-- The attempt stays as long as the call is on its way to success. -/
theorem step_attempt (begun : single.onward = true) {next : Disk Text × Single} (onward : next.2.onward = true)
    (taken : Single.step io job (disk, single) event = some next) : next.2.attempt = single.attempt := by
  have failed : ∀ (base : Single) (error : Error), (base.fail job.cfg error).onward = true → False := by
    intro base error
    unfold fail
    dsimp only
    split_ifs <;> rintro ⟨⟩
  have move := step_move taken
  obtain ⟨after, moved⟩ := next
  dsimp only at move onward ⊢
  cases move with
  | stopped at_pc | began at_pc | looked readable at_pc | answered existing resume response at_pc =>
      simp [Single.onward, at_pc] at begun
  | chunk stream size =>
      unfold onChunk
      dsimp only
      split_ifs <;> rfl
  | wrote | passed =>
      unfold onWrote
      dsimp only
      split_ifs <;> rfl
  | flushed =>
      unfold onFlushed
      split_ifs <;> rfl
  | closed total result =>
      unfold onClosed at onward ⊢
      dsimp only at onward ⊢
      split at onward
      · exact (failed _ _ onward).elim
      · rfl
      · rfl
  | measured total at_pc =>
      unfold onMeasured at onward ⊢
      split_ifs at onward ⊢
      · exact (failed _ _ onward).elim
      · rfl
  | failed _ error => exact (failed _ _ onward).elim
  | _ => rfl

/-- An answer that is no refusal begins to bring the content. -/
theorem onReply_tries {existing : Nat} {resume : Bool} {response : Response} (at_pc : single.pc = .sent existing resume)
    (lasts : single.Lasts cfg) (calm : single.cancelled = false) (opened : single.Opened)
    (succeeds : response.status = 200 ∨ response.status = 206)
    (honest : single.Honest content (.reply (some response))) :
    Tries content cfg single (.reply (some response)) (single.onReply job existing resume response) := by
  have left := lasts.left (by simp [outcome, at_pc])
  have fine : SingleEvent.failed (.reply (some response)) = false := by
    rcases succeeds with status | status <;> simp [SingleEvent.failed, status, isSuccess]
  have met : single.met = single.attempt := by simp [Single.met, at_pc]
  obtain ⟨partly, whole⟩ := honest (existing, resume) (by simp [requested, at_pc])
  have short : response.body.length ≤ content.length := by
    rcases succeeds with status | status
    · rw [(whole status).1]
    · rw [(partly status).1, List.length_drop]
      exact Nat.sub_le _ _
  have counts : single.attempt = single.met + (SingleEvent.failed (.reply (some response))).toNat := by
    rw [met, fine, Bool.toNat_false, Nat.add_zero]
  have light : ∀ pc : SinglePc, ({ single with pc := pc } : Single).hasHandle = false →
      ({ single with pc := pc } : Single).Opened :=
    fun pc bare => ⟨opened.1, fun used => absurd used (Bool.eq_false_iff.mp bare)⟩
  unfold onReply
  split
  · exact .go rfl left calm (light _ rfl) counts (Or.inl (by simp only [pace, rank, at_pc]; omega))
  · exact .go rfl left calm (light _ rfl) counts (Or.inl (by simp only [pace, rank, at_pc]; omega))
  · exact .go rfl left calm (light _ rfl) counts (Or.inl (by simp only [pace, rank, at_pc]; omega))
  · rename_i complete part volunteered
    rcases succeeds with status | status
    · exact absurd status complete
    · exact (Bool.eq_false_or_eq_true _).elim (fun asks => (part asks status).elim)
        fun plain => (volunteered plain status).elim

/-- Each step of a call that tries counts its failures and brings it nearer to its end. -/
theorem step_tries (lasts : single.Lasts job.cfg) (calm : single.cancelled = false) (opened : single.Opened)
    (sound : single.Sound content io job disk) (whole : single.Whole content disk)
    (retriable : single.Retriable content event) {next : Disk Text × Single}
    (taken : Single.step io job (disk, single) event = some next) : Tries content job.cfg single event next.2 := by
  by_cases failed : event.failed = true
  · exact step_failed lasts calm opened sound.parked failed taken
  have fine : event.failed = false := Bool.eq_false_iff.mpr failed
  by_cases onward : single.onward = true
  · have left := lasts.onward onward
    have faultless := faultless_of_retriable onward calm retriable fine taken
    obtain ⟨going, still, open_, falls⟩ := step_advances onward calm opened whole faultless taken
    have attempt := step_attempt onward going taken
    refine .go attempt (lasts_of_onward going (attempt ▸ left)) still open_ ?_ ?_
    · rw [met_of_onward going, met_of_onward onward, fine, attempt]
      rfl
    · rw [pace_of_onward going, pace_of_onward onward]
      exact falls
  have loud : event.fault = true → event.failed = true := by
    intro fault
    unfold SingleEvent.failed
    split
    · cases fault
    · exact fault
  have move := step_move taken
  obtain ⟨after, moved⟩ := next
  dsimp only at move ⊢
  cases move with
  | cancelled | lost => cases retriable
  | broken _ _ _ fault | failed _ _ fault => exact absurd (loud fault) failed
  | torn => exact absurd rfl failed
  | created _ _ at_pc | opened _ at_pc | chunk _ _ at_pc | ended _ at_pc | wrote _ _ _ at_pc | passed _ _ _ _ at_pc
  | flushed _ at_pc | synced _ at_pc | measured _ at_pc => simp [Single.onward, at_pc] at onward
  | interrupted => cases at_pc : single.pc <;> simp [Single.step, at_pc, calm] at taken
  | landed offset bytes held =>
      have used : single.hasHandle = true := by
        by_contra bare
        have parked := sound.parked (Bool.eq_false_iff.mpr bare)
        simp [held, Handle.flight] at parked
      cases at_pc : single.pc with
      | closing total result =>
          cases result with
          | ok => simp [Single.onward, at_pc] at onward
          | error error =>
              simp only [Lasts, at_pc] at lasts
              refine .go rfl (by simpa only [Lasts, at_pc] using lasts) calm ⟨by rintro ⟨⟩, fun _ => by rintro ⟨⟩⟩ ?_
                (Or.inl ?_)
              · simp only [Single.met, at_pc]
                rfl
              · simp [pace, rank, at_pc, held, Handle.flights, Handle.flight]
      | _ => simp_all [hasHandle, Single.onward]
  | stopped _ cancelled => cases calm.symm.trans cancelled
  | began at_pc =>
      simp only [Lasts, at_pc] at lasts
      refine .go rfl lasts calm ⟨opened.1, by rintro ⟨⟩⟩ ?_ (Or.inl (by simp only [pace, rank, at_pc]; omega))
      simp only [Single.met, at_pc]
      rfl
  | looked readable at_pc =>
      simp only [Lasts, at_pc] at lasts
      have counts : single.attempt = single.met + (SingleEvent.stat readable).failed.toNat := by
        simp only [Single.met, at_pc]
        rfl
      generalize (if readable then disk.length else 0) = existing
      unfold onStat
      split_ifs
      · exact .go rfl lasts calm ⟨opened.1, by rintro ⟨⟩⟩ counts (Or.inl (by simp only [pace, rank, at_pc]; omega))
      · exact .go rfl lasts calm ⟨opened.1, by rintro ⟨⟩⟩ counts (Or.inl (by simp only [pace, rank, at_pc]; omega))
  | answered existing resume response at_pc =>
      obtain refused | ⟨succeeds, honest⟩ := retriable
      · simp [SingleEvent.failed, refused] at failed
      · exact onReply_tries at_pc lasts calm opened succeeds honest
  | closed total result synced at_pc settled =>
      cases result with
      | ok => simp [Single.onward, at_pc] at onward
      | error error =>
          simp only [Lasts, at_pc] at lasts
          change Tries content job.cfg single (.closed synced) (({ single with handle := .closed } : Single).fail _ error)
          refine fail_tries lasts.1 { single with handle := .closed } rfl calm (by rintro ⟨⟩) rfl lasts.2 ?_
          simp only [Single.met, at_pc]
          rfl
  | slept at_pc =>
      simp only [Lasts, at_pc] at lasts
      refine .go rfl lasts calm ⟨opened.1, by rintro ⟨⟩⟩ ?_ (Or.inl ?_)
      · simp only [Single.met, at_pc]
        rfl
      · simp only [pace, rank, at_pc]
        omega

/-- A call that tries keeps a part of the content in the file. -/
structure Trying (content : List UInt8) (io : FileIo) (job : Job) (disk : Disk Text) (single : Single) : Prop where
  part : Partial content disk
  sound : single.Sound content io job disk
  whole : single.Whole content disk
  lasts : single.Lasts job.cfg
  calm : single.cancelled = false
  opened : single.Opened

theorem start_trying (part : Partial content disk) : (Single.start false).Trying content io job disk where
  part := part
  sound := start_sound content io job disk false
  whole := start_whole content disk false
  lasts := Nat.le_max_left 1 _
  calm := rfl
  opened := ⟨by rintro ⟨⟩, by rintro ⟨⟩⟩

theorem honest_of_retriable (retriable : single.Retriable content event) : single.Honest content event := by
  cases event with
  | reply answer =>
      cases answer with
      | none => trivial
      | some response =>
          obtain refused | ⟨-, honest⟩ := retriable
          · intro request _
            refine ⟨fun status => ?_, fun status => ?_⟩ <;> simp [status, isSuccess] at refused
          · exact honest
  | _ => trivial

/-- Each step keeps the call trying. -/
theorem Trying.step (trying : single.Trying content io job disk)
    (size : ∀ total ∈ job.info.size, total = content.length) (retriable : single.Retriable content event)
    {next : Disk Text × Single} (taken : Single.step io job (disk, single) event = some next) :
    next.2.Trying content io job next.1 ∧ Tries content job.cfg single event next.2 := by
  obtain ⟨part, sound, whole, lasts, calm, opened⟩ := trying
  have tries := step_tries lasts calm opened sound whole retriable taken
  have resumes : ∀ existing, single.pc = .sent existing true → disk.Holds content existing := by
    intro existing at_pc
    have aligned := sound.aligned
    simp only [Aligned, at_pc] at aligned
    obtain ⟨-, here, positive, -⟩ := aligned trivial
    obtain ⟨held, present, measured⟩ := Disk.contents_of_pos (here ▸ positive)
    exact ⟨held, present, measured.trans here.symm, part held present⟩
  obtain ⟨kept, promised, touched⟩ := whole.sound_step sound opened.1 size (honest_of_retriable retriable)
    (fun kept lost => by subst lost; cases retriable)
    (fun _ total known reached positive => part.complete (size total known ▸ reached) positive) resumes taken
  exact ⟨⟨part.touched touched, kept, promised, tries.lasts, tries.calm, tries.opened⟩, tries⟩

/-- A call that tries and has not returned can go on. -/
theorem Trying.moves (trying : single.Trying content io job disk) (pending : single.outcome = none) :
    ∃ event, single.Retriable content event ∧ ¬ single.Idle event ∧
      (Single.step io job (disk, single) event).isSome = true := by
  by_cases onward : single.onward = true
  · obtain ⟨event, faultless, busy, enabled⟩ : ∃ event, single.Faultless content (fun _ _ => True) event ∧
        ¬ single.Idle event ∧ (Single.step io job (disk, single) event).isSome = true :=
      onward_moves onward trying.opened pending
    refine ⟨event, ?_, busy, enabled⟩
    cases event with
    | reply answer =>
        cases answer with
        | none => trivial
        | some response =>
            obtain ⟨next, taken⟩ := Option.isSome_iff_exists.mp enabled
            obtain ⟨existing, resume, at_pc, -⟩ := step_reply taken
            simp [Single.onward, at_pc] at onward
    | chunk => exact faultless
    | cancel | lose => cases faultless
    | _ => trivial
  · cases at_pc : single.pc with
    | head => exact ⟨.check, trivial, by rintro ⟨⟩, by simp [Single.step, at_pc]⟩
    | looking => exact ⟨.stat true, trivial, by rintro ⟨⟩, by simp [Single.step, at_pc]⟩
    | sent => exact ⟨.reply none, trivial, by rintro ⟨⟩, by simp [Single.step, at_pc]⟩
    | closing total result =>
        rcases trying.opened.idle_or_lands (by simp [hasHandle, at_pc]) with idle | landing
        · exact ⟨.closed true, trivial, by rintro ⟨⟩, by cases io <;> simp [Single.step, at_pc, idle, settled]⟩
        · exact ⟨.land, trivial, by rintro ⟨⟩, landing⟩
    | waiting => exact ⟨.slept, trivial, by rintro ⟨⟩, by simp [Single.step, at_pc]⟩
    | returned => simp [outcome, at_pc] at pending
    | panicked =>
        have lasts := trying.lasts
        simp [Lasts, at_pc] at lasts
    | _ => simp [Single.onward, at_pc] at onward

/-- A call that has returned has the content, or it has used up its attempts. -/
theorem Trying.result (trying : single.Trying content io job disk) {result : Except Error Unit}
    (returned : single.outcome = some result) :
    (result = .ok () ∧ single.met < job.cfg.budget ∧ disk.contents = some content) ∨
      ∃ source, result = .error (.retryExhausted job.cfg.budget source) ∧ single.met = job.cfg.budget := by
  have at_pc := (outcome_iff _ _).mp returned
  have lasts := trying.lasts
  have whole := trying.whole
  have met : single.met = single.attempt := by simp only [Single.met, at_pc]
  rw [met]
  cases result with
  | ok =>
      simp only [Lasts, Whole, at_pc] at lasts whole
      exact Or.inl ⟨rfl, lasts, whole⟩
  | error error =>
      simp only [Lasts, at_pc] at lasts
      obtain ⟨spent, source, rfl⟩ := lasts
      exact Or.inr ⟨source, rfl, spent⟩

/-- Whatever fails on the way, a call that finds a part of the content comes to its end. It returns the whole content
exactly when it meets fewer failures than it has attempts, and it never returns another error. -/
theorem outlasts (size : ∀ total ∈ job.info.size, total = content.length) (part : Partial content disk) :
    Settles (Single.step io job) (fun state event => state.2.Retriable content event)
        (fun state event => state.2.Idle event) (fun state => state.2.outcome.isSome = true)
        (disk, Single.start false) ∧
      ∀ events last result, Run (Single.step io job) (fun state event => state.2.Retriable content event)
          (disk, Single.start false) events last → last.2.outcome = some result →
        (result = .ok () ↔ events.countP SingleEvent.failed < job.cfg.budget) ∧
        (result = .ok () → last.1.contents = some content) ∧
        ∀ error, result = .error error → ∃ source, error = .retryExhausted job.cfg.budget source := by
  have begun : (Single.start false).Trying content io job disk := start_trying part
  constructor
  · have ranked : Ranked (Single.step io job)
        (fun (state : Disk Text × Single) event => state.2.Retriable content event) (fun state event => state.2.Idle event)
        (fun state => state.2.outcome.isSome = true) (fun state => state.2.Trying content io job state.1)
        (fun state => state.2.toil content job.cfg) := by
      refine ⟨?_, ?_, fun state trying pending => trying.moves (Option.not_isSome_iff_eq_none.mp pending)⟩
      · exact fun before event after trying retriable taken => (Trying.step trying size retriable taken).1
      · exact fun before event after trying retriable taken => (Trying.step trying size retriable taken).2.falls
    exact ranked.settles begun
  · intro events last result run returned
    have history : last.2.Trying content io job last.1 ∧ last.2.met = events.countP SingleEvent.failed := by
      refine run.history (fun past (state : Disk Text × Single) => state.2.Trying content io job state.1 ∧
        state.2.met = past.countP SingleEvent.failed) ?_ ⟨begun, rfl⟩
      rintro past before event after ⟨trying, counted⟩ retriable taken
      obtain ⟨still, tries⟩ := trying.step size retriable taken
      refine ⟨still, ?_⟩
      rw [tries.counted, counted, countP_concat]
    obtain ⟨trying, counted⟩ := history
    rw [← counted]
    obtain ⟨rfl, fewer, contents⟩ | ⟨source, rfl, spent⟩ := trying.result returned
    · exact ⟨iff_of_true rfl fewer, fun _ => contents, by rintro _ ⟨⟩⟩
    · exact ⟨iff_of_false (by rintro ⟨⟩) (by omega), by rintro ⟨⟩, by rintro _ ⟨⟩; exact ⟨source, rfl⟩⟩

instance (content : List UInt8) (single : Single) (event : SingleEvent) :
    Decidable (single.Retriable content event) := by
  induction event using SingleEvent.casesOn with
  | reply answer =>
      induction answer using Option.casesOn with
      | none => exact .isTrue trivial
      | some response =>
          exact inferInstanceAs (Decidable (_ ∨ (_ ∨ _) ∧ single.Honest content (.reply (some response))))
  | chunk size => exact inferInstanceAs (Decidable (size ≤ single.unread))
  | cancel | lose => exact .isFalse not_false
  | _ => exact .isTrue trivial

/-- A request is lost, the next one is refused, and the first stream breaks after one byte. -/
def flakyEvents : List SingleEvent :=
  [.check, .stat true, .reply none, .slept, .check, .stat true, .reply (some ⟨503, none, none, []⟩), .slept,
    .check, .stat true, .reply (some ⟨200, none, some "3", [1, 2, 3]⟩), .created true, .opened true, .chunk 1, .wrote,
    .streamError, .closed false, .slept,
    .check, .stat true, .reply (some ⟨206, some "bytes 1-2/3", none, [2, 3]⟩), .opened true, .chunk 2, .wrote, .streamEnd,
    .closed true, .measured true]

def flakyRun : Option (Disk DownloadState × Single) :=
  replay (Single.step .through unsized) (⟨none, none⟩, Single.start false) flakyEvents

theorem outlasts_flaky :
    flakyEvents.countP SingleEvent.failed < unsized.cfg.budget ∧ (flakyRun.get rfl).1.contents = some [1, 2, 3] := by
  have run : Run (Single.step .through unsized) (fun state event => state.2.Retriable [1, 2, 3] event)
      (⟨none, none⟩, Single.start false) flakyEvents (flakyRun.get rfl) :=
    run_of_replay (by decide +kernel) (Option.some_get _).symm
  obtain ⟨enough, contents, -⟩ :=
    (outlasts (by simp [unsized]) (by simp [Partial, Disk.contents])).2 flakyEvents _ (.ok ()) run rfl
  exact ⟨enough.mp rfl, contents rfl⟩

end Single

end FastDownloader
