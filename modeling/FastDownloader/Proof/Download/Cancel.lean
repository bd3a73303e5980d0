/-
This file shows that a cancelled call comes to its end wherever the cancellation meets it. Past its probe it sends no
request that its token did not allow before.
-/

import FastDownloader.Model.Report
import FastDownloader.Proof.Download.Step
import FastDownloader.Proof.MultiThread.Cancel
import FastDownloader.Proof.SingleThread.Cancel

namespace FastDownloader

open Foundation

namespace Download

/-- This event of the call sets its token. -/
def cancelEvent (download : Download) : DownloadEvent :=
  match download.pc with
  | .multi _ _ => .multi .cancel
  | .single _ _ => .single .cancel
  | _ => .cancel

/-- The token is set where the call still looks at it. -/
def Told (download : Download) : Prop :=
  match download.pc with
  | .parsing | .preparing | .probing => download.cancelled = true
  | .multi _ multi => multi.cancelled = true
  | .single _ single => single.cancelled = true
  | _ => True

/-- The paths of the call have opened the handles that they use. -/
def Equipped (download : Download) : Prop :=
  match download.pc with
  | .multi _ multi => multi.Equipped
  | .single _ single => single.Usable
  | _ => True

/-- The call has returned, or it has panicked somewhere. -/
def ended (download : Download) : Bool :=
  match download.pc with
  | .returned _ | .panicked => true
  | .multi _ multi => multi.ended && multi.outcome.isNone
  | .single _ single => single.ended && single.outcome.isNone
  | _ => false

/-- These events can come as often as they like. -/
def Lingers (download : Download) : DownloadEvent → Prop
  | .cancel => True
  | .multi act => ∀ path ∈ download.multi?, path.2.Lingers act
  | .single event => event = .cancel
  | _ => False

/--
The requests for the file that are in flight, and the one that an attempt sends after it has read its token.
The HEAD and the GET of the probe are not counted: a call whose token is set in the probe may still send them.
-/
def requests (download : Download) : Nat :=
  match download.pc with
  | .multi _ multi => multi.requests
  | .single _ single => single.requests
  | _ => 0

variable {Text : Type} [SerdeJson Text] {io : FileIo} {hasher : Hasher} {call : DownloadCall} {disk : Disk Text}
  {download : Download} {event : DownloadEvent} {next : Disk Text × Download}

/-- The token of the task reaches the call in whatever place the call is. -/
theorem step_cancel (call : DownloadCall) (disk : Disk Text) (download : Download) :
    Download.step io hasher call (disk, download) download.cancelEvent = some (disk, download.cancelNow) := by
  obtain ⟨at_pc, cancelled⟩ := download
  cases at_pc <;> rfl

theorem cancelNow_outcome (download : Download) : download.cancelNow.outcome = download.outcome := by
  obtain ⟨at_pc, cancelled⟩ := download
  cases at_pc <;> rfl

theorem cancelNow_told (download : Download) : download.cancelNow.Told := by
  obtain ⟨at_pc, cancelled⟩ := download
  cases at_pc <;> first | rfl | trivial

/-- The control points that are left once the token is set. The probe may find any resource. -/
def cancelRank (call : DownloadCall) (disk : Disk Text) (download : Download) : Nat :=
  match download.pc with
  | .parsing => 4 * rangesBound call.requestedThreads disk + 37
  | .preparing => 4 * rangesBound call.requestedThreads disk + 36
  | .probing => 4 * rangesBound call.requestedThreads disk + 35
  | .multi job multi => multi.cancelRank job disk + 5
  | .single _ single => single.cancelRank + 5
  | .measuring _ => 4
  | .verifying _ _ => 3
  | .removing _ => 2
  | .deleting _ => 1
  | .returned _ | .panicked => 0

/-- What one step of a cancelled call does. -/
structure Winds (call : DownloadCall) (disk : Disk Text) (download : Download) (event : DownloadEvent)
    (next : Disk Text × Download) : Prop where
  falls : next.2.cancelRank call next.1 < download.cancelRank call disk ∨
    (download.Lingers event ∧ next.2.cancelRank call next.1 ≤ download.cancelRank call disk)
  silent : next.2.requests ≤ download.requests
  told : next.2.Told

/-- A path that has just been probed is not longer than the probe has allowed for. -/
theorem onProbed_winds (info : FileInfo) (told : download.Told) (at_pc : download.pc = .probing) :
    Winds call disk download event (disk, download.onProbed call info) := by
  have token : download.cancelled = true := by simpa only [Told, at_pc] using told
  unfold onProbed
  dsimp only
  split_ifs
  · exact ⟨Or.inl (by simp [cancelRank, at_pc]), Nat.zero_le _, trivial⟩
  · refine ⟨Or.inl ?_, Nat.zero_le _, token⟩
    simp [cancelRank, at_pc, Multi.cancelRank, Multi.phaseRank, Multi.start]
  · refine ⟨Or.inl ?_, Nat.zero_le _, token⟩
    have light : Handle.flights .closed = 0 := rfl
    simp only [cancelRank, at_pc, Single.cancelRank, Single.windDown, Single.start, light]
    omega

/-- Each step of a cancelled call brings it nearer to its end, adds no request for the file, and keeps the token set. -/
theorem step_winds (equipped : download.Equipped) (told : download.Told)
    (taken : Download.step io hasher call (disk, download) event = some next) :
    Winds call disk download event next := by
  have later : ∀ {after : Disk Text} {moved : Download}, moved.requests = 0 → moved.Told →
      moved.cancelRank call after < download.cancelRank call disk → Winds call disk download event (after, moved) :=
    fun silent told falls => ⟨Or.inl falls, silent ▸ Nat.zero_le _, told⟩
  obtain ⟨after, moved⟩ := next
  unfold Download.step at taken
  dsimp only at taken
  split at taken
  · rename_i job multi act at_pc
    obtain ⟨result, stepped, same⟩ := Option.map_eq_some_iff.mp taken
    cases same
    simp only [Equipped, at_pc] at equipped
    simp only [Told, at_pc] at told
    have winds := Multi.step_winds equipped told stepped
    refine ⟨winds.falls.imp (fun lower => ?_) fun stays => ⟨?_, ?_⟩, ?_, winds.kept told⟩
    · simpa only [cancelRank, at_pc, Nat.add_lt_add_iff_right] using lower
    · intro path member
      rw [multi?, at_pc] at member
      obtain rfl := Option.some.inj member
      exact stays.1
    · simpa only [cancelRank, at_pc, Nat.add_le_add_iff_right] using stays.2
    · simpa only [requests, at_pc] using winds.silent
  · rename_i job single event at_pc
    obtain ⟨result, stepped, same⟩ := Option.map_eq_some_iff.mp taken
    cases same
    simp only [Told, at_pc] at told
    have winds := Single.step_winds told stepped
    refine ⟨winds.falls.imp (fun lower => ?_) fun stays => ⟨stays.1, ?_⟩, ?_, winds.kept told⟩
    · simpa only [cancelRank, at_pc, Nat.add_lt_add_iff_right] using lower
    · simpa only [cancelRank, at_pc, Nat.add_le_add_iff_right] using stays.2
    · simpa only [requests, at_pc] using winds.silent
  · cases taken
  · cases taken
  · rename_i noMulti noSingle
    cases taken
    refine ⟨Or.inr ⟨trivial, ?_⟩, ?_, ?_⟩
    · exact Nat.le_refl _
    · exact Nat.le_refl _
    · unfold Told at told ⊢
      cases at_pc : download.pc with
      | multi job multi => exact absurd at_pc (noMulti job multi)
      | single job single => exact absurd at_pc (noSingle job single)
      | _ => trivial
  · rename_i at_pc
    have token : download.cancelled = true := by simpa only [Told, at_pc] using told
    split_ifs at taken <;> cases taken
    · exact later rfl token (by simp [cancelRank, at_pc])
    · exact later rfl trivial (by simp [cancelRank, at_pc])
  · rename_i at_pc
    have token : download.cancelled = true := by simpa only [Told, at_pc] using told
    split_ifs at taken <;> cases taken
    · exact later rfl token (by simp [cancelRank, at_pc])
    · exact later rfl trivial (by simp [cancelRank, at_pc])
  · rename_i at_pc
    cases taken
    exact onProbed_winds _ told at_pc
  · rename_i at_pc
    cases taken
    exact later rfl trivial (by simp [cancelRank, at_pc])
  · rename_i at_pc
    split_ifs at taken
    cases taken
    exact later rfl trivial (by simp [cancelRank, at_pc])
  · rename_i job multi at_pc
    obtain ⟨result, returned, same⟩ := Option.map_eq_some_iff.mp taken
    cases same
    cases result with
    | ok => exact later rfl trivial (by simp [cancelRank, onJoin, at_pc])
    | error error => exact later rfl trivial (by simp [cancelRank, onJoin, at_pc])
  · rename_i job single at_pc
    obtain ⟨result, returned, same⟩ := Option.map_eq_some_iff.mp taken
    cases same
    cases result with
    | ok => exact later rfl trivial (by simp [cancelRank, onJoin, at_pc])
    | error error => exact later rfl trivial (by simp [cancelRank, onJoin, at_pc])
  · rename_i info readable at_pc
    split_ifs at taken <;> cases taken
    · unfold onMeasured
      split
      · exact later rfl trivial (by simp [cancelRank, at_pc])
      · split
        · exact later rfl trivial (by simp [cancelRank, at_pc])
        · exact later rfl trivial (by simp [cancelRank, at_pc])
    · exact later rfl trivial (by simp [cancelRank, at_pc])
  · rename_i size expected readable at_pc
    split at taken <;> cases taken
    · exact later rfl trivial (by simp [cancelRank, at_pc])
    · exact later rfl trivial (by simp [cancelRank, at_pc])
  · rename_i error ok at_pc
    cases taken
    exact later rfl trivial (by simp [cancelRank, at_pc])
  · rename_i error ok at_pc
    cases taken
    exact later rfl trivial (by simp [cancelRank, at_pc])
  · cases taken

/-- Every step keeps the handles of the paths. -/
theorem Equipped.step (equipped : download.Equipped)
    (taken : Download.step io hasher call (disk, download) event = some next) : next.2.Equipped := by
  have move := step_move taken
  obtain ⟨after, moved⟩ := next
  dsimp only at move ⊢
  cases move with
  | cancelled => exact equipped
  | advanced _ pc early => rcases early with rfl | rfl <;> trivial
  | probed info =>
      unfold onProbed
      dsimp only
      split_ifs
      · trivial
      · exact Multi.start_equipped _ _
      · exact Single.start_usable _
  | multi act job multi result at_pc stepped =>
      simp only [Equipped, at_pc] at equipped
      exact equipped.step stepped
  | single event job single result at_pc stepped =>
      simp only [Equipped, at_pc] at equipped
      exact Single.step_usable equipped stepped
  | measured info at_pc =>
      unfold onMeasured
      split
      · trivial
      · split <;> trivial
  | _ => trivial

theorem Equipped.cancelNow (equipped : download.Equipped) : download.cancelNow.Equipped := by
  obtain ⟨at_pc, cancelled⟩ := download
  cases at_pc with
  | multi job multi =>
      have held : multi.Equipped := equipped
      exact { opened := held.opened, bare := held.bare : ({ multi with cancelled := true } : Multi).Equipped }
  | _ => exact equipped

/-- A cancelled call that has not ended can do something that brings it nearer to its end. -/
theorem Equipped.moves (equipped : download.Equipped) (told : download.Told) (pending : download.ended = false) :
    ∃ event, ¬ download.Lingers event ∧ (Download.step io hasher call (disk, download) event).isSome = true := by
  cases at_pc : download.pc with
  | parsing => exact ⟨.parsed true, by rintro ⟨⟩, by simp [Download.step, at_pc]⟩
  | preparing => exact ⟨.prepared true, by rintro ⟨⟩, by simp [Download.step, at_pc]⟩
  | probing => exact ⟨.probed (.error .http), by rintro ⟨⟩, by simp [Download.step, at_pc]⟩
  | measuring info => exact ⟨.measured false, by rintro ⟨⟩, by simp [Download.step, at_pc]⟩
  | verifying size expected =>
      refine ⟨.hashed false, by rintro ⟨⟩, ?_⟩
      simp [Download.step, at_pc, Hasher.verifyFile]
  | removing error => exact ⟨.removed true, by rintro ⟨⟩, by simp [Download.step, at_pc]⟩
  | deleting error => exact ⟨.deleted true, by rintro ⟨⟩, by simp [Download.step, at_pc]⟩
  | returned result | panicked => simp [ended, at_pc] at pending
  | multi job multi =>
      simp only [Equipped, at_pc] at equipped
      simp only [Told, at_pc] at told
      simp only [ended, at_pc] at pending
      cases rests : multi.ended with
      | true =>
          rw [rests, Bool.true_and, Option.isNone_eq_false_iff] at pending
          obtain ⟨result, returned⟩ := Option.isSome_iff_exists.mp pending
          exact ⟨.join, by rintro ⟨⟩, by simp [Download.step, at_pc, returned]⟩
      | false =>
          obtain ⟨act, busy, enabled⟩ : ∃ act, ¬ multi.Lingers act ∧
              (Multi.step io job (disk, multi) act).isSome = true := equipped.moves told rests
          refine ⟨.multi act, fun lingers => busy (lingers (job, multi) (by rw [multi?, at_pc]; rfl)), ?_⟩
          simpa [Download.step, at_pc] using enabled
  | single job single =>
      simp only [Equipped, at_pc] at equipped
      simp only [ended, at_pc] at pending
      cases rests : single.ended with
      | true =>
          rw [rests, Bool.true_and, Option.isNone_eq_false_iff] at pending
          obtain ⟨result, returned⟩ := Option.isSome_iff_exists.mp pending
          exact ⟨.join, by rintro ⟨⟩, by simp [Download.step, at_pc, returned]⟩
      | false =>
          obtain ⟨event, busy, enabled⟩ : ∃ event, event ≠ .cancel ∧
              (Single.step io job (disk, single) event).isSome = true := equipped.moves rests
          refine ⟨.single event, busy, ?_⟩
          simpa [Download.step, at_pc] using enabled

theorem run_equipped {guard : Disk Text × Download → DownloadEvent → Prop} {events : List DownloadEvent}
    {last : Disk Text × Download}
    (run : Run (Download.step io hasher call) guard (disk, Download.start call) events last) : last.2.Equipped :=
  run.invariant (fun state => state.2.Equipped) (fun _ _ _ held _ taken => held.step taken) trivial

/--
Whenever a call is cancelled, it can be led to its end, and it cannot go on forever with anything but further
cancellations and the ticks of its state task. Until it has ended, another step is possible. That step may be the
answer to a request, the next piece of a stream or a timeout, since a worker does not look at its token there.
-/
theorem cancelled_settles (io : FileIo) (hasher : Hasher) (call : DownloadCall) (disk last : Disk Text)
    (events : List DownloadEvent) (download : Download)
    (run : Run (Download.step io hasher call) (fun _ _ => True) (disk, Download.start call) events (last, download)) :
    Settles (Download.step io hasher call) (fun _ _ => True) (fun state event => state.2.Lingers event)
        (fun state => state.2.ended = true) (last, download.cancelNow) ∧
      ∀ more later, Run (Download.step io hasher call) (fun _ _ => True) (last, download.cancelNow) more later →
        later.2.ended = false → ∃ event, ¬ later.2.Lingers event ∧
          (Download.step io hasher call later event).isSome = true := by
  have ranked : Ranked (Download.step io hasher call) (fun _ _ => True) (fun state event => state.2.Lingers event)
      (fun state => state.2.ended = true) (fun state : Disk Text × Download => state.2.Equipped ∧ state.2.Told)
      (fun state => state.2.cancelRank call state.1) := by
    refine ⟨?_, ?_, ?_⟩
    · intro before event after held _ taken
      exact ⟨held.1.step taken, (step_winds held.1 held.2 taken).told⟩
    · intro before event after held _ taken
      exact (step_winds held.1 held.2 taken).falls
    · intro state held pending
      obtain ⟨event, busy, enabled⟩ : ∃ event, ¬ state.2.Lingers event ∧
          (Download.step io hasher call (state.1, state.2) event).isSome = true :=
        held.1.moves held.2 (Bool.eq_false_iff.mpr pending)
      exact ⟨event, trivial, busy, enabled⟩
  have wound : download.cancelNow.Equipped ∧ download.cancelNow.Told :=
    ⟨(run_equipped run).cancelNow, cancelNow_told download⟩
  refine ⟨ranked.settles wound, fun more later onward pending => ?_⟩
  have held := onward.invariant (fun state => state.2.Equipped ∧ state.2.Told) ranked.preserved wound
  exact held.1.moves held.2 pending

/--
From one moment after the cancellation to a later one, the requests for the file only become fewer. So past its probe
the call sends none, except for the request of a single-thread attempt that has read its token before.
-/
theorem cancelled_silent (io : FileIo) (hasher : Hasher) (call : DownloadCall) (disk middle : Disk Text)
    (later last : Disk Text × Download) (events more rest : List DownloadEvent) (download : Download)
    (run : Run (Download.step io hasher call) (fun _ _ => True) (disk, Download.start call) events (middle, download))
    (onward : Run (Download.step io hasher call) (fun _ _ => True) (middle, download.cancelNow) more later)
    (further : Run (Download.step io hasher call) (fun _ _ => True) later rest last) :
    last.2.requests ≤ later.2.requests := by
  have wound : later.2.Equipped ∧ later.2.Told :=
    onward.invariant (fun state => state.2.Equipped ∧ state.2.Told)
      (fun before event after held _ taken => ⟨held.1.step taken, (step_winds held.1 held.2 taken).told⟩)
      ⟨(run_equipped run).cancelNow, cancelNow_told download⟩
  have kept := further.invariant
    (fun state => (state.2.Equipped ∧ state.2.Told) ∧ state.2.requests ≤ later.2.requests)
    (fun before event after held _ taken => by
      have winds := step_winds held.1.1 held.1.2 taken
      exact ⟨⟨held.1.1.step taken, winds.told⟩, Nat.le_trans winds.silent held.2⟩)
    ⟨wound, Nat.le_refl _⟩
  exact kept.2

/-- This call has two threads and has sent its first request. -/
def askedEvents : List DownloadEvent :=
  [.parsed true, .prepared true, .probed (.ok ⟨"u", some 2, fits_two, true, none, none, none⟩),
    .multi (.main (.load true)), .multi (.main (.created true)), .multi (.main (.resized true)),
    .multi (.main (.synced true)), .multi (.worker 0 .check)]

def askedCall : DownloadCall := ⟨{ url := "u", threadCount := some 2 }, { minChunkSize := 1 }⟩

/-- These states of the call come after some of its events. -/
def askedRun (first : Disk DownloadState × Download) (events : List DownloadEvent) :
    Option (Disk DownloadState × Download) :=
  replay (Download.step .through anyHasher askedCall) first events

def asked : Disk DownloadState × Download := (askedRun (⟨none, none⟩, Download.start askedCall) askedEvents).get rfl

theorem asked_run : Run (Download.step .through anyHasher askedCall) (fun _ _ => True)
    (⟨none, none⟩, Download.start askedCall) askedEvents asked :=
  run_of_replay (by decide +kernel) (Option.some_get _).symm

/-- The call is cancelled while its first request is in flight. -/
theorem cancelled_settles_asked :
    Settles (Download.step .through anyHasher askedCall) (fun _ _ => True) (fun state event => state.2.Lingers event)
        (fun state => state.2.ended = true) (asked.1, asked.2.cancelNow) ∧
      ∃ event, ¬ asked.2.cancelNow.Lingers event ∧
        (Download.step .through anyHasher askedCall (asked.1, asked.2.cancelNow) event).isSome = true := by
  obtain ⟨settles, moves⟩ :=
    cancelled_settles .through anyHasher askedCall ⟨none, none⟩ asked.1 askedEvents asked.2 asked_run
  exact ⟨settles, moves [] _ (.nil _) rfl⟩

/-- The attempt has read its token and waits for the length of the file. -/
def lookingEvents : List DownloadEvent :=
  [.parsed true, .prepared true, .probed (.ok ⟨"u", some 2, fits_two, false, none, none, none⟩), .single .check]

def looking : Disk DownloadState × Download :=
  (askedRun (⟨none, none⟩, Download.start askedCall) lookingEvents).get rfl

/-- The attempt sends the request that it had decided on, and then it sees the token. -/
def lastEvents : List DownloadEvent := [.single (.stat true), .single .interrupted]

theorem cancelled_silent_asked :
    ((askedRun (looking.1, looking.2.cancelNow) lastEvents).get rfl).2.requests ≤ looking.2.cancelNow.requests := by
  have run : Run (Download.step .through anyHasher askedCall) (fun _ _ => True)
      (⟨none, none⟩, Download.start askedCall) lookingEvents looking :=
    run_of_replay (by decide +kernel) (Option.some_get _).symm
  have further : Run (Download.step .through anyHasher askedCall) (fun _ _ => True)
      (looking.1, looking.2.cancelNow) lastEvents
      ((askedRun (looking.1, looking.2.cancelNow) lastEvents).get rfl) :=
    run_of_replay (by decide +kernel) (Option.some_get _).symm
  exact cancelled_silent .through anyHasher askedCall ⟨none, none⟩ looking.1
    (looking.1, looking.2.cancelNow) _ lookingEvents [] lastEvents looking.2 run (.nil _) further

end Download

end FastDownloader
