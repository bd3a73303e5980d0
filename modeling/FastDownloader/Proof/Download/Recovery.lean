/-
This file proves from which files single-thread calls without a fault come to the whole content.
-/

import FastDownloader.Proof.Download.Faultless
import FastDownloader.Proof.Download.Modes

namespace FastDownloader

open Foundation

namespace Download

variable {Text : Type} [SerdeJson Text] {io : FileIo} {hasher : Hasher} {call again : DownloadCall}
  {info : FileInfo} {content held : List UInt8} {policy : Policy} {before : Disk Text}
  {good : Except Error Nat → Disk Text → Prop}

/-- Every run without a fault from this file comes to its end, and each end is good. -/
structure Ends (io : FileIo) (hasher : Hasher) (call : DownloadCall) (given : Except Error FileInfo)
    (content : List UInt8) (policy : Policy) (before : Disk Text) (good : Except Error Nat → Disk Text → Prop) :
    Prop where
  settles : Settles (Download.step io hasher call) (fun state event => state.2.Faultless content policy given event)
    (fun state event => state.2.Idle event) (fun state => state.2.outcome.isSome = true) (before, Download.start call)
  good : ∀ events last result, Run (Download.step io hasher call)
    (fun state event => state.2.Faultless content policy given event) (before, Download.start call) events last →
    last.2.outcome = some result → good result last.1

/-- A call that comes to its end has a good one. -/
theorem Ends.exists_end {given : Except Error FileInfo} (ends : Ends io hasher call given content policy before good) :
    ∃ events last result, Run (Download.step io hasher call)
      (fun state event => state.2.Faultless content policy given event) (before, Download.start call) events last ∧
      last.2.outcome = some result ∧ good result last.1 := by
  obtain ⟨last, arrived, events, run⟩ := ends.settles.reaches [] _ (.nil _)
  obtain ⟨result, returned⟩ := Option.isSome_iff_exists.mp arrived
  exact ⟨events, last, result, run, returned, ends.good events last result run returned⟩

/-- The call returns the length of the content, and the file holds the content. -/
def Succeeds (content : List UInt8) (result : Except Error Nat) (disk : Disk Text) : Prop :=
  result = .ok content.length ∧ disk.contents = some content

/-- Where there are no bytes, each answer brings the content. -/
theorem brings_clean {target : List UInt8} (brings : call.Brings info content policy [] target) :
    target = content := by
  unfold DownloadCall.Brings at brings
  split_ifs at brings
  · exact brings
  · cases brings with
    | kept settled => simp [Single.settledBy] at settled
    | whole => rfl
    | resumed _ positive => simp at positive

omit [SerdeJson Text] in
theorem ready_clean (threads : 1 ≤ call.cfg.maxThreads) (fits : ∀ total ∈ info.size, total = content.length)
    (empty : before.contents.getD [] = []) (unsaved : call.canMulti info = true → before.dlstate = none) :
    Ready call info content before := by
  refine ⟨threads, ⟨fits, fun _ positive _ => ?_⟩, unsaved⟩
  simp [empty] at positive

/-- A call that finds no bytes succeeds when the checksum in force accepts the content. -/
theorem clean_ends (conforming : policy.Conforming) (ready : Ready call info content before)
    (empty : before.contents.getD [] = [])
    (accepted : ∀ expected ∈ call.expectedChecksum info, hasher.verifyFile (some content) expected = .ok ()) :
    Ends io hasher call (.ok info) content policy before (Succeeds content) := by
  refine ⟨faultless_settles conforming ready, fun events last result run returned => ?_⟩
  have ended := faultless_ends conforming ready run returned
  rw [empty] at ended
  cases ended with
  | verified target brings present =>
      obtain rfl := brings_clean brings
      exact ⟨rfl, present⟩
  | mismatched target total brings present known differs =>
      obtain rfl := brings_clean brings
      exact absurd (ready.prepared.fits total known) differs
  | rejected error refused =>
      obtain ⟨target, expected, brings, -, inForce, fails⟩ := refused
      obtain rfl := brings_clean brings
      rw [accepted expected inForce] at fails
      cases fails

/-- A first call succeeds, or a second one does. -/
def Recovers (io : FileIo) (hasher : Hasher) (call again : DownloadCall) (info : FileInfo) (content : List UInt8)
    (before : Disk Text) : Prop :=
  ∀ policy : Policy, policy.Conforming → Ends io hasher call (.ok info) content policy before fun result after =>
    Succeeds content result after ∨ Ends io hasher again (.ok info) content policy after (Succeeds content)

/-- The checksum in force refuses these bytes. -/
def Refuses (hasher : Hasher) (call : DownloadCall) (info : FileInfo) (bytes : List UInt8) : Prop :=
  ∃ expected ∈ call.expectedChecksum info, hasher.verifyFile (some bytes) expected ≠ .ok ()

/-- The held bytes are no longer than the content. They are a part of it, or no request will go on behind them, or
the checksum in force finds out. -/
def Curable (hasher : Hasher) (call : DownloadCall) (info : FileInfo) (content held : List UInt8) : Prop :=
  held.length ≤ content.length ∧ (held <+: content ∨ (held.length < content.length ∧ info.supportsRange = false) ∨
    Refuses hasher call info (Single.spliced content held))

theorem brings_alone {target : List UInt8} (alone : call.canMulti info = false)
    (brings : call.Brings info content policy held target) : Single.Made content policy (call.job info) held target := by
  unfold DownloadCall.Brings at brings
  rwa [if_neg (by simp [alone])] at brings

theorem spliced_length (short : held.length ≤ content.length) :
    (Single.spliced content held).length = content.length := by
  simp only [Single.spliced, List.length_append, List.length_drop]
  omega

theorem spliced_of_front (start : held <+: content) : Single.spliced content held = content := by
  obtain ⟨rest, rfl⟩ := start
  rw [Single.spliced, List.drop_left]

theorem settledBy_iff (size : info.size = some content.length) :
    Single.settledBy (call.job info) held = true ↔ content.length ≤ held.length ∧ 0 < held.length := by
  simp [Single.settledBy, DownloadCall.job, size]

/-- A curable file becomes the content, or the checksum in force finds out. -/
theorem Curable.target {target : List UInt8} (curable : Curable hasher call info content held)
    (size : info.size = some content.length) (made : Single.Made content policy (call.job info) held target) :
    target.length = content.length ∧ (target = content ∨ Refuses hasher call info target) := by
  obtain ⟨short, cured⟩ := curable
  cases made with
  | kept settled =>
      have long := ((settledBy_iff size).mp settled).1
      have whole : Single.spliced content held = held := by
        rw [Single.spliced, List.drop_eq_nil_of_le long, List.append_nil]
      refine ⟨Nat.le_antisymm short long, ?_⟩
      rcases cured with start | ⟨shorter, -⟩ | refuses
      · exact Or.inl (start.eq_of_length_le long)
      · omega
      · exact Or.inr (whole ▸ refuses)
  | whole => exact ⟨rfl, Or.inl rfl⟩
  | resumed unsettled positive ranges =>
      refine ⟨spliced_length short, ?_⟩
      rcases cured with start | ⟨-, ignored⟩ | refuses
      · exact Or.inl (spliced_of_front start)
      · cases ranges.symm.trans ignored
      · exact Or.inr refuses

omit [SerdeJson Text] in
/-- A single-thread call of known length can be made from any file. -/
theorem ready_alone (threads : 1 ≤ call.cfg.maxThreads) (size : info.size = some content.length)
    (alone : call.canMulti info = false) (before : Disk Text) : Ready call info content before := by
  refine ⟨threads, ⟨fun total known => Option.some.inj (known.symm.trans size), fun unsettled positive _ => ?_⟩,
    fun parallel => nomatch alone.symm.trans parallel⟩
  by_contra longer
  have settled : Single.settledBy (call.job info) _ = true :=
    (settledBy_iff size).mpr ⟨Nat.le_of_not_le longer, positive⟩
  exact nomatch unsettled.symm.trans settled

/-- From a curable file, the content is there after two calls. -/
theorem Curable.recovers (curable : Curable hasher call info content (before.contents.getD []))
    (size : info.size = some content.length) (alone : call.canMulti info = false)
    (alone' : again.canMulti info = false) (threads : 1 ≤ call.cfg.maxThreads) (threads' : 1 ≤ again.cfg.maxThreads)
    (accepted : ∀ expected ∈ again.expectedChecksum info, hasher.verifyFile (some content) expected = .ok ()) :
    Recovers io hasher call again info content before := by
  intro policy conforming
  have ready := ready_alone threads size alone before
  refine ⟨faultless_settles conforming ready, fun events last result run returned => ?_⟩
  have ended := faultless_ends conforming ready run returned
  cases ended with
  | verified target brings present fits passed =>
      obtain ⟨length, same | ⟨expected, inForce, refuses⟩⟩ := curable.target size (brings_alone alone brings)
      · subst same
        exact Or.inl ⟨rfl, present⟩
      · exact absurd (passed expected inForce) refuses
  | mismatched target total brings present known differs =>
      obtain ⟨length, -⟩ := curable.target size (brings_alone alone brings)
      exact absurd ((Option.some.inj (known.symm.trans size)).trans length.symm) differs
  | rejected error refused removed =>
      -- The file is gone, so the second call starts from nothing.
      have empty : last.1.contents.getD [] = [] := by simp [Disk.contents, removed]
      exact Or.inr (clean_ends conforming (ready_alone threads' size alone' last.1) empty accepted)

/-- What a server that honours ranges makes of a file shows whether it was curable. -/
theorem curable_of_made {target : List UInt8} (made : Single.Made content honouring (call.job info) held target)
    (size : info.size = some content.length) (length : target.length = content.length)
    (fine : target = content ∨ Refuses hasher call info target) : Curable hasher call info content held := by
  cases made with
  | kept settled =>
      have whole : Single.spliced content held = held := by
        rw [Single.spliced, List.drop_eq_nil_of_le (Nat.le_of_eq length.symm), List.append_nil]
      rcases fine with same | refuses
      · exact ⟨Nat.le_of_eq length, Or.inl (same ▸ List.prefix_refl held)⟩
      · exact ⟨Nat.le_of_eq length, Or.inr (Or.inr (by rwa [whole]))⟩
  | whole unsettled allowed =>
      by_cases positive : 0 < held.length
      · have ignored : info.supportsRange = false := by
          by_contra ranges
          simp [honouring, positive, DownloadCall.job, ranges] at allowed
        have shorter : held.length < content.length := by
          by_contra longer
          have settled : Single.settledBy (call.job info) _ = true :=
            (settledBy_iff size).mpr ⟨Nat.le_of_not_lt longer, positive⟩
          cases unsettled.symm.trans settled
        exact ⟨Nat.le_of_lt shorter, Or.inr (Or.inl ⟨shorter, ignored⟩)⟩
      · obtain rfl := List.length_eq_zero_iff.mp (Nat.eq_zero_of_not_pos positive)
        exact ⟨Nat.zero_le _, Or.inl List.nil_prefix⟩
  | resumed unsettled positive ranges =>
      have short : held.length ≤ content.length := by
        simp only [Single.spliced, List.length_append, List.length_drop] at length
        omega
      rcases fine with same | refuses
      · exact ⟨short, Or.inl (same ▸ List.prefix_append held _)⟩
      · exact ⟨short, Or.inr (Or.inr refuses)⟩

/-- A call succeeds on a file of full length only where the file is the content. -/
theorem whole_of_ends {after : Disk Text} {target : List UInt8} (size : info.size = some content.length)
    (alone' : again.canMulti info = false) (threads' : 1 ≤ again.cfg.maxThreads)
    (ends : Ends io hasher again (.ok info) content honouring after (Succeeds content))
    (present : after.contents = some target) (long : content.length ≤ target.length) : target = content := by
  by_cases positive : 0 < target.length
  · have settled : Single.settledBy (again.job info) _ = true := (settledBy_iff size).mpr ⟨long, positive⟩
    obtain ⟨events, last, result, run, returned, same, found⟩ := ends.exists_end
    have ended := faultless_ends honouring_conforming (ready_alone threads' size alone' after) run returned
    rw [present, Option.getD_some] at ended
    cases ended with
    | verified left brings kept =>
        cases brings_alone alone' brings with
        | kept => exact Option.some.inj (kept.symm.trans found)
        | whole unsettled | resumed unsettled => exact nomatch unsettled.symm.trans settled
    | mismatched | rejected => cases same
  · obtain rfl := List.length_eq_zero_iff.mp (Nat.eq_zero_of_not_pos positive)
    exact (List.length_eq_zero_iff.mp (Nat.le_zero.mp long)).symm

/-- A call without a valid thread limit never returns. -/
theorem Ends.threads {given : FileInfo}
    (ends : Ends io hasher call (.ok given) content policy before good) : 1 ≤ call.cfg.maxThreads := by
  by_contra invalid
  have few : call.cfg.maxThreads < 1 := Nat.lt_of_not_le invalid
  have run : Run (Download.step io hasher call) (fun state event => state.2.Faultless content policy (.ok given) event)
      (before, Download.start call) [.parsed true, .prepared true, .probed (.ok given)] (before, ⟨.panicked, false⟩) := by
    refine .cons rfl rfl (.cons rfl rfl (.cons rfl ?_ (.nil _)))
    simp [Download.step, onProbed, few, Download.start]
  obtain ⟨last, arrived, more, further⟩ := ends.settles.reaches _ _ run
  have stuck : last.2.pc = .panicked := by
    refine further.invariant (fun state => state.2.pc = .panicked) ?_ rfl
    rintro ⟨disk, pc, cancelled⟩ event after (rfl : pc = .panicked) faultless taken
    cases event with
    | cancel => cases faultless
    | _ => cases taken
  simp [Download.outcome, stuck] at arrived

/-- A first call whose probe told the truth succeeds exactly when its settings are valid and the checksum of the caller
accepts the content. -/
theorem clean_ends_iff (conforming : policy.Conforming) (fits : ∀ total ∈ info.size, total = content.length)
    (digest : ∀ expected ∈ info.digest, hasher.verifyFile (some content) expected = .ok ()) :
    Ends io hasher call (.ok info) content policy (⟨none, none⟩ : Disk Text) (Succeeds content) ↔
      1 ≤ call.cfg.maxThreads ∧
        ∀ expected ∈ call.task.expectedChecksum, hasher.verifyFile (some content) expected = .ok () := by
  constructor
  · intro ends
    have ready : Ready call info content (⟨none, none⟩ : Disk Text) := ready_clean ends.threads fits rfl fun _ => rfl
    obtain ⟨events, last, result, run, returned, same, -⟩ := ends.exists_end
    have ended := faultless_ends conforming ready run returned
    refine ⟨ends.threads, fun expected given => ?_⟩
    cases ended with
    | verified target brings present fits accepted =>
        obtain rfl := brings_clean brings
        exact accepted expected (Option.or_eq_some_iff.mpr (Or.inl given))
    | mismatched | rejected => cases same
  · rintro ⟨threads, right⟩
    refine clean_ends conforming (ready_clean threads fits rfl fun _ => rfl) rfl ?_
    intro expected inForce
    rcases Option.or_eq_some_iff.mp inForce with given | ⟨-, advertised⟩
    · exact right expected given
    · split_ifs at advertised
      exact digest expected advertised

/-- Only from a curable file does a server that honours ranges lead two calls to the content. -/
theorem Recovers.curable (recovers : Recovers io hasher call again info content before)
    (size : info.size = some content.length) (alone : call.canMulti info = false)
    (alone' : again.canMulti info = false) (threads' : 1 ≤ again.cfg.maxThreads) :
    1 ≤ call.cfg.maxThreads ∧ Curable hasher call info content (before.contents.getD []) := by
  have ends := recovers honouring honouring_conforming
  refine ⟨ends.threads, ?_⟩
  obtain ⟨events, last, result, run, returned, good⟩ := ends.exists_end
  have ended := faultless_ends honouring_conforming (ready_alone ends.threads size alone before) run returned
  cases ended with
  | verified target brings present fits =>
      have length := (fits _ size).symm
      have same : target = content := by
        rcases good with ⟨-, found⟩ | further
        · exact Option.some.inj (present.symm.trans found)
        · exact whole_of_ends size alone' threads' further present (Nat.le_of_eq length.symm)
      exact curable_of_made (brings_alone alone brings) size length (Or.inl same)
  | mismatched target total brings present known differs =>
      exfalso
      have other : target.length ≠ content.length := by
        rw [size] at known
        exact fun same => differs ((Option.some.inj known).symm.trans same.symm)
      rcases good with ⟨returned, -⟩ | further
      · cases returned
      · cases brings_alone alone brings with
        | kept settled =>
            have long := ((settledBy_iff size).mp settled).1
            exact other (congrArg List.length (whole_of_ends size alone' threads' further present long))
        | whole => exact other rfl
        | resumed unsettled positive =>
            have short := (ready_alone ends.threads size alone before).prepared.within unsettled positive
            exact other (spliced_length (short (by assumption)))
  | rejected error refused =>
      obtain ⟨target, expected, brings, fits, inForce, fails⟩ := refused
      exact curable_of_made (brings_alone alone brings) size (fits _ size).symm
        (Or.inr ⟨expected, inForce, by rw [fails]; nofun⟩)

/-- Two single-thread calls bring the content exactly from the curable files. A longer file of an earlier version,
or another file of full length that no checksum finds out, stays for good. -/
theorem recovers_iff (size : info.size = some content.length) (alone : call.canMulti info = false)
    (alone' : again.canMulti info = false) (threads' : 1 ≤ again.cfg.maxThreads)
    (accepted : ∀ expected ∈ again.expectedChecksum info, hasher.verifyFile (some content) expected = .ok ()) :
    Recovers io hasher call again info content before ↔
      1 ≤ call.cfg.maxThreads ∧ Curable hasher call info content (before.contents.getD []) :=
  ⟨fun recovers => recovers.curable size alone alone' threads',
    fun ⟨threads, curable⟩ => curable.recovers size alone alone' threads threads' accepted⟩

/-- A resource of one byte with a strong tag. -/
def shorterInfo : FileInfo := ⟨"u", some 1, fits_one, true, some "b", none, none⟩

def oneThread : DownloadCall := ⟨{ url := "u", threadCount := some 1 }, {}⟩

/-- A resource of two bytes with a strong tag. -/
def longerInfo : FileInfo := ⟨"u", some 2, fits_two, true, some "b", none, none⟩

/-- An interrupted call has left the first byte of the resource. -/
theorem recovers_iff_leftover :
    Recovers .through anyHasher oneThread oneThread longerInfo [4, 5]
      (⟨some [⟨4, 1, false⟩], none⟩ : Disk DownloadState) := by
  have free : oneThread.expectedChecksum longerInfo = none := rfl
  refine (recovers_iff rfl rfl rfl (by decide) (by simp [free])).mpr ⟨by decide, by decide, Or.inl ?_⟩
  exact ⟨[5], rfl⟩

/-- The histories of single-thread calls. -/
def Alone {Text : Type} : Session (Disk Text) Download DownloadCall → Move DownloadCall DownloadEvent → Prop
  | _, .start call => call.requestedThreads = 1
  | _, _ => True

instance {Text : Type} (session : Session (Disk Text) Download DownloadCall) : ∀ move, Decidable (Alone session move)
  | .start call => inferInstanceAs (Decidable (call.requestedThreads = 1))
  | .step _ | .finish | .kill => .isTrue trivial

/-- An earlier version of the resource had three bytes, and a call has completed its download. -/
def longerMoves : List (Move DownloadCall DownloadEvent) :=
  [.start oneThread, .step (.parsed true), .step (.prepared true),
    .step (.probed (.ok ⟨"u", some 3, fits_three, true, some "a", none, none⟩))] ++
  [.check, .stat true, .reply (some ⟨200, none, none, [1, 2, 3]⟩), .created true, .opened true, .chunk 3, .wrote, .streamEnd,
    .closed true, .measured true].map (fun event => .step (.single event)) ++
  [.step .join, .step (.measured true), .finish]

/-- The file of a longer version makes every later call fail. -/
theorem recovers_not_longer :
    ¬ ∀ moves last, Run (downloads DownloadState .through anyHasher).session Alone ⟨⟨none, none⟩, none⟩ moves last →
      last.active = none → Recovers .through anyHasher oneThread oneThread shorterInfo [4] last.store := by
  intro always
  have run : Run (downloads DownloadState .through anyHasher).session Alone ⟨⟨none, none⟩, none⟩ longerMoves
      ((downloadHistory longerMoves).get rfl) :=
    run_of_replay (by decide +kernel) (Option.some_get _).symm
  have curable := (always _ _ run rfl).curable rfl rfl rfl (by decide)
  have left : ((downloadHistory longerMoves).get rfl).store.contents = some [1, 2, 3] := by decide +kernel
  have short := curable.2.1
  rw [left] at short
  exact absurd short (by decide)

end Download

end FastDownloader
