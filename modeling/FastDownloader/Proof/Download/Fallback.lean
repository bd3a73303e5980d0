/-
This file proves when a download falls back to one thread because the server has ignored the request of the probe for
the first byte.
-/

import FastDownloader.Proof.Download.Honest
import FastDownloader.Proof.MultiThread.Preservation

namespace FastDownloader

open Foundation

namespace StaticServer

/-- `HEAD` promises that ranges are honoured. -/
def Promises (server : StaticServer) : Prop :=
  ∃ response ∈ server.head, isSuccess response.status = true ∧ response.supportsRange = some true

/-- Each request for a range is answered by the whole content with its length. `HEAD` may tell anything but a wrong
length or a wrong digest. -/
structure Ignores (hasher : Hasher) (content : List UInt8) (server : StaticServer) : Prop where
  ignores : server.honours = false
  head : ∀ response ∈ server.head, isSuccess response.status = true →
    (∀ total ∈ response.lengthTotal, total = content.length) ∧
      ∀ expected ∈ response.digest, hasher.verifyFile (some content) expected = .ok ()
  range : ∃ response, server.range = some response ∧ response.status = 200 ∧
    response.lengthTotal = some content.length

variable {hasher : Hasher} {content : List UInt8} {server : StaticServer}

/-- The probe learns the length and a true digest, and it believes `HEAD` about ranges. -/
structure Believes (hasher : Hasher) (content : List UInt8) (server : StaticServer) (info : FileInfo) : Prop where
  size : info.size = some content.length
  digest : ∀ expected ∈ info.digest, hasher.verifyFile (some content) expected = .ok ()
  ranges : info.supportsRange = true ↔ server.Promises

/-- The whole content as an answer to the request for the first byte adds the length where `HEAD` did not tell it. -/
theorem rangeProbe_whole (head : Option ProbeResponse) {response : ProbeResponse} (status : response.status = 200)
    (length : response.lengthTotal = some content.length)
    (told : ∀ total ∈ head.bind ProbeResponse.lengthTotal, total = content.length) :
    rangeProbe head (some response) = .ok (rangeInfo head response) ∧
      (rangeInfo head response).size = some content.length ∧
      ((rangeInfo head response).supportsRange = true ↔ head.bind ProbeResponse.supportsRange = some true) := by
  refine ⟨by simp [rangeProbe, status, isSuccess], ?_, by simp [rangeInfo, status]⟩
  simp only [rangeInfo, probeSize, status, length]
  cases known : head.bind ProbeResponse.lengthTotal with
  | none => rfl
  | some total => simp [told total known]

/-- The probe that asks for the first byte believes `HEAD`. -/
theorem Ignores.probe (ignores : server.Ignores hasher content) (asked : ¬ server.TellsAll) :
    ∃ info, FastDownloader.probe server.head server.range = .ok info ∧ server.Believes hasher content info := by
  obtain ⟨response, answered, status, length⟩ := ignores.range
  unfold FastDownloader.probe
  rw [answered]
  split
  · rename_i head kept
    obtain ⟨mine, success⟩ := Option.filter_eq_some_iff.mp kept
    obtain ⟨told, digest⟩ := ignores.head head mine success
    rw [if_neg fun full => asked ⟨head, mine, success, full.1, full.2⟩]
    obtain ⟨learned, size, ranges⟩ := rangeProbe_whole (some head) status length told
    refine ⟨_, learned, size, digest, ranges.trans ⟨fun given => ⟨head, mine, success, given⟩, ?_⟩⟩
    rintro ⟨other, found, -, given⟩
    obtain rfl := Option.some.inj (mine.symm.trans found)
    exact given
  · rename_i refused
    obtain ⟨learned, size, ranges⟩ := rangeProbe_whole none status length nofun
    refine ⟨_, learned, size, nofun, ranges.trans ⟨nofun, ?_⟩⟩
    rintro ⟨other, found, success, -⟩
    rw [Option.mem_def.mp found, Option.filter_some, if_pos success] at refused
    cases refused

end StaticServer

namespace Multi

variable {Text : Type} [SerdeJson Text] {io : FileIo} {job : Job} {disk after : Disk Text} {multi next : Multi}
  {act : Act}

/-- No worker has handed a byte over. -/
def Unhanded (multi : Multi) : Prop := ∀ worker ∈ multi.workers, worker.handed = worker.start

/-- Without a right byte there is nothing to hand over. -/
theorem Unhanded.change (unhanded : multi.Unhanded)
    (change : Change (fun _ _ => False) io job disk multi act after next) : next.Unhanded := by
  cases change with
  | cancelled | main | saver | orphanLanded | orphanLost => exact unhanded
  | landed index worker offset bytes present | lost index _ worker offset bytes present =>
      exact forall_mem_set unhanded (unhanded worker (List.mem_of_getElem? present))
  | worker index event worker moved effect running present facts =>
      have before := unhanded worker (List.mem_of_getElem? present)
      have kept : moved.handed = moved.start := by
        rw [facts.start, ← before]
        cases facts.moved with
        | control rests | torn _ _ _ _ _ _ rests | dropped _ _ rests => exact rests.handed
        | stored _ _ handed | counted handed | marked _ _ _ _ handed => exact handed
        | wrote bytes _ accepts | passed bytes _ accepts =>
            obtain ⟨byte, rest, rfl⟩ := List.exists_cons_of_ne_nil accepts.nonempty
            exact (accepts.suited 0 byte rfl).elim
      cases effect <;> exact forall_mem_set unhanded kept

/-- A file with bytes is not complete as long as nothing was handed over. -/
theorem Unhanded.unfinished (unhanded : multi.Unhanded) (controlled : Controlled (fun _ _ => False) job multi)
    (positive : 0 < job.fileSize) : multi.outcome ≠ some (.ok ()) := by
  intro returned
  have ended := (outcome_iff _ _).mp returned
  have complete := controlled.checked (by simp [ended, Phase.checked])
  have accepted : multi.accepted = 0 := by
    refine List.sum_eq_zero fun count member => ?_
    obtain ⟨worker, present, rfl⟩ := List.mem_map.mp member
    rw [unhanded worker present, Nat.sub_self]
  have counter := controlled.counter
  omega

/-- A call without a saved state begins with nothing handed over. -/
theorem begin_unhanded {readable : Bool} {ranges : List WorkerRange} (unsaved : disk.dlstate = none)
    (chosen : chooseRanges job job.fileSize (if readable then disk.dlstate else none) = some ranges) :
    (multi.begin ranges).Unhanded := by
  intro worker member
  obtain ⟨range, present, rfl⟩ := List.mem_map.mp member
  rcases chooseRanges_cases chosen with ⟨state, loaded, -⟩ | ⟨-, split⟩
  · rw [unsaved, ite_self] at loaded
    cases loaded
  · exact (splitWorkers_cover split).2 range present

end Multi

namespace Download

variable {Text : Type} [SerdeJson Text] {io : FileIo} {hasher : Hasher} {call : DownloadCall} {info : FileInfo}
  {content : List UInt8} {server : StaticServer} {disk : Disk Text} {download : Download} {event : DownloadEvent}
  {next : Disk Text × Download}

/-- The probe gives this answer, and each answer to a worker has the status 200. -/
def Unranged (info : FileInfo) : DownloadEvent → Prop
  | .probed answer => answer = .ok info
  | .multi act => ∀ response ∈ act.answer, response.status = 200
  | _ => True

/-- A call that believes in ranges gets nowhere. -/
def Doomed (disk : Disk Text) (download : Download) : Prop :=
  match download.pc with
  | .parsing | .preparing | .probing => disk.dlstate = none
  | .multi job multi => 0 < job.fileSize ∧ ((Multi.Unbegun job multi ∧ disk.dlstate = none) ∨
      (Multi.Controlled (fun _ _ => False) job multi ∧ multi.Unhanded))
  | .returned (.error _) | .panicked => True
  | _ => False

/-- An answer 200 carries nothing for a worker. -/
theorem answered_none {multi : Multi} {act : Act} (whole : ∀ response ∈ act.answer, response.status = 200) :
    multi.Answered (fun _ _ => False) act := by
  unfold Multi.Answered
  split
  · rename_i index event
    intro worker _
    unfold Worker.Answered
    split
    · rename_i response
      intro asked _ partly
      have status := whole response rfl
      omega
    · trivial
  · trivial

/-- A step of the multi-thread path hands nothing over. -/
theorem doomed_multi {job : Job} {multi : Multi} {act : Act} {after : Disk Text × Multi}
    (whole : ∀ response ∈ act.answer, response.status = 200)
    (state : (Multi.Unbegun job multi ∧ disk.dlstate = none) ∨
      (Multi.Controlled (fun _ _ => False) job multi ∧ multi.Unhanded))
    (taken : Multi.step io job (disk, multi) act = some after) :
    (Multi.Unbegun job after.2 ∧ after.1.dlstate = none) ∨
      (Multi.Controlled (fun _ _ => False) job after.2 ∧ after.2.Unhanded) := by
  rcases state with ⟨unbegun, unsaved⟩ | ⟨controlled, unhanded⟩
  · rcases unbegun.step_cases taken with ⟨same, still⟩ | ⟨readable, ranges, -, chosen, rfl⟩
    · exact Or.inl ⟨still, by rw [same, unsaved]⟩
    · exact Or.inr ⟨unbegun.controlled chosen, Multi.begin_unhanded unsaved chosen⟩
  · have change := controlled.step_change (answered_none whole) taken
    exact Or.inr ⟨controlled.change change, unhanded.change change⟩

omit [SerdeJson Text] in
/-- The probe of a call that takes more than one thread leads to the loading of a state that is not there. -/
theorem probed_doomed {cancelled : Bool} (parallel : call.canMulti info = true) (unsaved : disk.dlstate = none) :
    Doomed disk (Download.onProbed call ⟨.probing, cancelled⟩ info) := by
  unfold onProbed
  split_ifs
  · trivial
  · have positive : 0 < Job.fileSize ⟨info, call.requestedThreads, call.cfg⟩ := by
      obtain ⟨total, known, positive⟩ := DownloadCall.size_of_canMulti parallel
      simpa [Job.fileSize, known] using positive
    exact ⟨positive, Or.inl ⟨⟨Or.inl rfl, rfl, rfl, rfl⟩, unsaved⟩⟩

/-- Each step of such a call keeps it from its success. -/
theorem Doomed.step (parallel : call.canMulti info = true) (doomed : Doomed disk download)
    (unranged : Unranged info event) (taken : Download.step io hasher call (disk, download) event = some next) :
    Doomed next.1 next.2 := by
  obtain ⟨pc, cancelled⟩ := download
  unfold Doomed at doomed
  unfold Download.step at taken
  dsimp only at doomed taken
  cases pc with
  | parsing =>
      cases event with
      | parsed ok =>
          cases ok <;> cases taken
          · trivial
          · exact doomed
      | cancel =>
          cases taken
          exact doomed
      | _ => cases taken
  | preparing =>
      cases event with
      | prepared ok =>
          cases ok <;> cases taken
          · trivial
          · exact doomed
      | cancel =>
          cases taken
          exact doomed
      | _ => cases taken
  | probing =>
      cases event with
      | probed answer =>
          obtain rfl : answer = .ok info := unranged
          cases taken
          exact probed_doomed parallel doomed
      | interrupted =>
          dsimp only at taken
          split_ifs at taken
          cases taken
          trivial
      | cancel =>
          cases taken
          exact doomed
      | _ => cases taken
  | multi job multi =>
      cases event with
      | multi act =>
          obtain ⟨after, stepped, rfl⟩ := Option.map_eq_some_iff.mp taken
          exact ⟨doomed.1, doomed_multi unranged doomed.2 stepped⟩
      | join =>
          obtain ⟨result, returned, rfl⟩ := Option.map_eq_some_iff.mp taken
          obtain ⟨positive, ⟨unbegun, -⟩ | ⟨controlled, unhanded⟩⟩ := doomed
          · cases result with
            | ok => exact absurd returned unbegun.outcome
            | error error => trivial
          · cases result with
            | ok => exact absurd returned (unhanded.unfinished controlled positive)
            | error error => trivial
      | _ => cases taken
  | returned | panicked =>
      cases event with
      | cancel =>
          cases taken
          exact doomed
      | _ => cases taken
  | single | measuring | verifying | removing | deleting => exact doomed.elim

/-- The probe reports no ranges, the call takes one thread, and it comes to its end with the whole content. -/
def FallsBack (Text : Type) [SerdeJson Text] (io : FileIo) (hasher : Hasher) (call : DownloadCall)
    (content : List UInt8) (server : StaticServer) : Prop :=
  ∃ info, probe server.head server.range = .ok info ∧ info.supportsRange = false ∧ call.canMulti info = false ∧
    Ends io hasher call (.ok info) content server.policy (⟨none, none⟩ : Disk Text) (Succeeds content)

/-- When the server has ignored the request for the first byte, a first download falls back to one thread and succeeds
exactly when its settings are valid and `HEAD` did not promise ranges. A call that believes the promise and takes more
than one thread never returns without an error. -/
theorem falls_back_iff (ignores : server.Ignores hasher content) (asked : ¬ server.TellsAll) :
    (FallsBack Text io hasher call content server ↔
      1 ≤ call.cfg.maxThreads ∧
        (∀ expected ∈ call.task.expectedChecksum, hasher.verifyFile (some content) expected = .ok ()) ∧
        ¬ server.Promises) ∧
    ∀ info, probe server.head server.range = .ok info → call.canMulti info = true → ∀ events last size,
      Run (Download.step io hasher call) (fun _ event => Unranged info event)
        ((⟨none, none⟩ : Disk Text), Download.start call) events last → last.2.outcome ≠ some (.ok size) := by
  obtain ⟨info, learned, believes⟩ := ignores.probe asked
  have fits : ∀ total ∈ info.size, total = content.length := fun total known =>
    Option.some.inj (known.symm.trans believes.size)
  have decides : Ends io hasher call (.ok info) content server.policy (⟨none, none⟩ : Disk Text) (Succeeds content) ↔
      1 ≤ call.cfg.maxThreads ∧
        ∀ expected ∈ call.task.expectedChecksum, hasher.verifyFile (some content) expected = .ok () :=
    clean_ends_iff server.policy_conforming fits believes.digest
  refine ⟨⟨?_, ?_⟩, ?_⟩
  · rintro ⟨other, found, ranges, -, ends⟩
    obtain rfl := Except.ok.inj (learned.symm.trans found)
    obtain ⟨threads, right⟩ := decides.mp ends
    refine ⟨threads, right, fun promises => ?_⟩
    rw [believes.ranges.mpr promises] at ranges
    cases ranges
  · rintro ⟨threads, right, silent⟩
    have ranges : info.supportsRange = false := Bool.eq_false_iff.mpr fun given => silent (believes.ranges.mp given)
    exact ⟨info, learned, ranges, by simp [DownloadCall.canMulti, ranges], decides.mpr ⟨threads, right⟩⟩
  · intro given _ parallel events last size run returned
    have unsaved : Doomed (⟨none, none⟩ : Disk Text) (Download.start call) := rfl
    have doomed := run.invariant (fun state => Doomed state.1 state.2)
      (fun _ _ _ doomed unranged taken => doomed.step parallel unranged taken) unsaved
    rw [Doomed, (outcome_iff _ _).mp returned] at doomed
    exact doomed

/-- The whole content of one byte answers the request for the first byte, and `HEAD` gives these headers. -/
def wholeServer (head : ProbeResponse) : StaticServer where
  honours := false
  head := some head
  range := some { url := "u", status := 200, contentLength := some "1" }

theorem wholeServer_ignores {head : ProbeResponse} (silent : head.lengthTotal = none ∧ head.digest = none) :
    (wholeServer head).Ignores anyHasher [7] where
  ignores := rfl
  head := by
    rintro _ ⟨⟩ -
    simp [silent]
  range := ⟨_, rfl, rfl, by decide +kernel⟩

theorem wholeServer_asked {head : ProbeResponse} (silent : head.lengthTotal = none) :
    ¬ (wholeServer head).TellsAll := by
  rintro ⟨_, ⟨⟩, -, -, told⟩
  simp [silent] at told

/-- A task with two threads. -/
def twoThreads : DownloadCall := ⟨{ url := "u", threadCount := some 2 }, {}⟩

theorem falls_back_iff_silent :
    FallsBack DownloadState .through anyHasher twoThreads [7] (wholeServer { url := "u", status := 200 }) := by
  refine (falls_back_iff (wholeServer_ignores ⟨rfl, rfl⟩) (wholeServer_asked rfl)).1.mpr ⟨by decide, nofun, ?_⟩
  rintro ⟨_, ⟨⟩, -, promised⟩
  cases promised

/-- `HEAD` says `Accept-Ranges: bytes` and gives no length. -/
def promisingHead : ProbeResponse := { url := "u", status := 200, acceptRanges := some "bytes" }

/-- The ignored request for the first byte does not change what the probe believes. -/
theorem not_falls_back :
    ¬ ∀ content server, content ≠ [] → server.Ignores anyHasher content → ¬ server.TellsAll →
      FallsBack DownloadState .through anyHasher twoThreads content server := by
  intro always
  have ignores : (wholeServer promisingHead).Ignores anyHasher [7] := wholeServer_ignores ⟨rfl, rfl⟩
  have asked : ¬ (wholeServer promisingHead).TellsAll := wholeServer_asked rfl
  have promises : (wholeServer promisingHead).Promises := ⟨_, rfl, rfl, by decide +kernel⟩
  obtain ⟨info, learned, ranges, -⟩ := always [7] _ (by simp) ignores asked
  obtain ⟨other, same, believes⟩ := ignores.probe asked
  obtain rfl := Except.ok.inj (learned.symm.trans same)
  rw [believes.ranges.mpr promises] at ranges
  cases ranges

end Download

end FastDownloader
