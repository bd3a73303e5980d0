/-
This file proves from which honest servers a first download without a fault brings the whole content.
-/

import FastDownloader.Model.Probe
import FastDownloader.Proof.Download.Recovery

namespace FastDownloader

open Foundation

/-- A static server either honours every range or ignores every range. -/
structure StaticServer where
  honours : Bool
  head : Option ProbeResponse
  range : Option ProbeResponse

namespace StaticServer

/-- The policy of the server for the requests of a download. -/
def policy (server : StaticServer) : Policy := if server.honours then honouring else ignoring

/-- `HEAD` tells the length and that ranges are honoured. -/
def TellsAll (server : StaticServer) : Prop :=
  ∃ response ∈ server.head, isSuccess response.status = true ∧ response.supportsRange = some true ∧
    response.lengthTotal.isSome = true

/-- `HEAD` is refused or answered truthfully. The request for the first byte is answered by that byte, by an error
where there is no byte, or by the whole content. -/
structure Honest (hasher : Hasher) (content : List UInt8) (server : StaticServer) : Prop where
  head : ∀ response ∈ server.head, isSuccess response.status = true →
    (∀ total ∈ response.lengthTotal, total = content.length) ∧
      (∀ supports ∈ response.supportsRange, supports = server.honours) ∧
      ∀ expected ∈ response.digest, hasher.verifyFile (some content) expected = .ok ()
  range : ∃ response, server.range = some response ∧
    if server.honours then
      if content = [] then response.status = 416
      else response.status = 206 ∧ ∀ total ∈ response.rangeTotal, total = content.length
    else response.status = 200 ∧ ∀ total ∈ response.lengthTotal, total = content.length

variable {hasher : Hasher} {content : List UInt8} {server : StaticServer}

theorem policy_conforming (server : StaticServer) : server.policy.Conforming := by
  unfold policy
  split_ifs
  · exact honouring_conforming
  · exact ignoring_conforming

/-- What a probe of an honest server learns is true. -/
structure Truthful (hasher : Hasher) (content : List UInt8) (server : StaticServer) (info : FileInfo) : Prop where
  size : ∀ total ∈ info.size, total = content.length
  ranges : info.supportsRange = server.honours
  digest : ∀ expected ∈ info.digest, hasher.verifyFile (some content) expected = .ok ()

/-- A server that ignores ranges is never asked for the range of a worker. -/
theorem Truthful.alone {info : FileInfo} (truthful : server.Truthful hasher content info)
    (ignores : server.honours = false) (call : DownloadCall) : call.canMulti info = false := by
  simp [DownloadCall.canMulti, truthful.ranges, ignores]

/-- The answer to the request for the first byte adds only true facts. -/
theorem Honest.rangeProbe (honest : server.Honest hasher content) (able : content ≠ [] ∨ server.honours = false)
    {head : Option ProbeResponse}
    (before : ∀ response ∈ head, response ∈ server.head ∧ isSuccess response.status = true) :
    ∃ info, FastDownloader.rangeProbe head server.range = .ok info ∧ server.Truthful hasher content info := by
  have told : ∀ total ∈ head.bind ProbeResponse.lengthTotal, total = content.length := by
    intro total given
    obtain ⟨response, found, length⟩ := Option.bind_eq_some_iff.mp given
    obtain ⟨mine, success⟩ := before response found
    exact (honest.head response mine success).1 total length
  have claimed : ∀ supports ∈ head.bind ProbeResponse.supportsRange, supports = server.honours := by
    intro supports given
    obtain ⟨response, found, header⟩ := Option.bind_eq_some_iff.mp given
    obtain ⟨mine, success⟩ := before response found
    exact (honest.head response mine success).2.1 supports header
  have digest : ∀ expected ∈ head.bind ProbeResponse.digest, hasher.verifyFile (some content) expected = .ok () := by
    intro expected given
    obtain ⟨response, found, header⟩ := Option.bind_eq_some_iff.mp given
    obtain ⟨mine, success⟩ := before response found
    exact (honest.head response mine success).2.2 expected header
  obtain ⟨response, answered, shape⟩ := honest.range
  rw [answered]
  cases honours : server.honours with
  | true =>
      obtain ⟨status, total⟩ : response.status = 206 ∧ ∀ total ∈ response.rangeTotal, total = content.length := by
        have present : content ≠ [] := able.resolve_right (by simp [honours])
        simpa [honours, present] using shape
      refine ⟨rangeInfo head response, by simp [FastDownloader.rangeProbe, status], fun size given => ?_,
        by simp [rangeInfo, status, honours], digest⟩
      simp only [rangeInfo, probeSize, status, if_true] at given
      rcases Option.or_eq_some_iff.mp given with ranged | ⟨-, length⟩
      · exact total size ranged
      · exact told size length
  | false =>
      obtain ⟨status, total⟩ : response.status = 200 ∧ ∀ total ∈ response.lengthTotal, total = content.length := by
        simpa [honours] using shape
      have silent : head.bind ProbeResponse.supportsRange ≠ some true := by
        intro given
        have same := claimed true given
        rw [honours] at same
        cases same
      refine ⟨rangeInfo head response, by simp [FastDownloader.rangeProbe, status, isSuccess], fun size given => ?_,
        by simp [rangeInfo, status, honours, silent], digest⟩
      simp only [rangeInfo, probeSize, status] at given
      rcases Option.or_eq_some_iff.mp given with length | ⟨-, ranged⟩
      · exact told size length
      · exact total size ranged

/-- The probe of an honest server learns the truth, unless the server has nothing to show a range of. -/
theorem Honest.probe (honest : server.Honest hasher content)
    (able : content ≠ [] ∨ server.honours = false ∨ server.TellsAll) :
    ∃ info, FastDownloader.probe server.head server.range = .ok info ∧ server.Truthful hasher content info := by
  unfold FastDownloader.probe
  split
  · rename_i response kept
    obtain ⟨mine, success⟩ := Option.filter_eq_some_iff.mp kept
    obtain ⟨length, supports, digest⟩ := honest.head response mine success
    split_ifs with full
    · exact ⟨_, rfl, length, supports true full.1, digest⟩
    · refine honest.rangeProbe ?_ fun other found => ?_
      · refine able.imp_right fun able => able.resolve_right ?_
        rintro ⟨other, found, -, ranges, known⟩
        obtain rfl := Option.some.inj (mine.symm.trans found)
        exact full ⟨ranges, known⟩
      · obtain rfl := Option.some.inj found
        exact ⟨mine, success⟩
  · rename_i refused
    refine honest.rangeProbe ?_ nofun
    refine able.imp_right fun able => able.resolve_right ?_
    rintro ⟨response, found, success, -⟩
    rw [Option.mem_def.mp found, Option.filter_some, if_pos success] at refused
    cases refused

/-- A server that honours ranges has no first byte of an empty resource to send. -/
theorem Honest.probe_empty (honest : server.Honest hasher []) (honours : server.honours = true)
    (partly : ¬ server.TellsAll) : FastDownloader.probe server.head server.range = .error (.status 416) := by
  obtain ⟨response, answered, shape⟩ := honest.range
  have status : response.status = 416 := by simpa [honours] using shape
  have refused : ∀ head, FastDownloader.rangeProbe head server.range = .error (.status 416) := by
    intro head
    rw [answered]
    simp [FastDownloader.rangeProbe, status, isSuccess]
  unfold FastDownloader.probe
  split
  · rename_i other kept
    obtain ⟨mine, success⟩ := Option.filter_eq_some_iff.mp kept
    rw [if_neg fun full => partly ⟨other, mine, success, full.1, full.2⟩]
    exact refused _
  · exact refused _

end StaticServer

namespace Download

variable {Text : Type} [SerdeJson Text] {io : FileIo} {hasher : Hasher} {call : DownloadCall} {content : List UInt8}
  {server : StaticServer}

/-- A first download from this server comes to its end, and it returns with the whole content. -/
def Fetches (Text : Type) [SerdeJson Text] (io : FileIo) (hasher : Hasher) (call : DownloadCall)
    (content : List UInt8) (server : StaticServer) : Prop :=
  Ends io hasher call (probe server.head server.range) content server.policy (⟨none, none⟩ : Disk Text)
    (Succeeds content)

/-- A call whose probe fails returns its error. -/
theorem not_ends_error {given : Error} {policy : Policy} {before : Disk Text} :
    ¬ Ends io hasher call (.error given) content policy before (Succeeds content) := by
  intro ends
  have run : Run (Download.step io hasher call)
      (fun state event => state.2.Faultless content policy (.error given) event) (before, Download.start call)
      [.parsed true, .prepared true, .probed (.error given)] (before, ⟨.returned (.error given), false⟩) :=
    .cons rfl rfl (.cons rfl rfl (.cons rfl rfl (.nil _)))
  cases (ends.good _ _ _ run rfl).1

/-- A first download from an honest server succeeds exactly when the settings are valid and the resource is not empty,
or the server ignores ranges, or its answer to `HEAD` makes the request for the first byte unnecessary. -/
theorem fetches_iff (honest : server.Honest hasher content) :
    Fetches Text io hasher call content server ↔
      1 ≤ call.cfg.maxThreads ∧
        (∀ expected ∈ call.task.expectedChecksum, hasher.verifyFile (some content) expected = .ok ()) ∧
        (content ≠ [] ∨ server.honours = false ∨ server.TellsAll) := by
  constructor
  · intro fetches
    have able : content ≠ [] ∨ server.honours = false ∨ server.TellsAll := by
      by_contra unable
      simp only [not_or, not_not, Bool.not_eq_false] at unable
      obtain ⟨rfl, honours, partly⟩ := unable
      unfold Fetches at fetches
      rw [honest.probe_empty honours partly] at fetches
      exact not_ends_error fetches
    obtain ⟨info, learned, truthful⟩ := honest.probe able
    unfold Fetches at fetches
    rw [learned] at fetches
    obtain ⟨threads, right⟩ := (clean_ends_iff server.policy_conforming truthful.size truthful.digest).mp fetches
    exact ⟨threads, right, able⟩
  · rintro ⟨threads, right, able⟩
    obtain ⟨info, learned, truthful⟩ := honest.probe able
    unfold Fetches
    rw [learned]
    exact (clean_ends_iff server.policy_conforming truthful.size truthful.digest).mpr ⟨threads, right⟩

/-- A server with `HEAD` that tells nothing and with one byte to send. -/
def quietServer : StaticServer where
  honours := true
  head := some { url := "u", status := 405 }
  range := some { url := "u", status := 206, contentRange := some "bytes 0-0/1" }

theorem quietServer_honest : quietServer.Honest anyHasher [7] where
  head := by
    rintro _ ⟨⟩ success
    cases success
  range := by
    refine ⟨_, rfl, ?_⟩
    rw [if_pos (show quietServer.honours = true from rfl), if_neg (by simp)]
    refine ⟨rfl, fun total given => ?_⟩
    have known : ProbeResponse.rangeTotal
        { url := "u", status := 206, contentRange := some "bytes 0-0/1" } = some 1 := by decide +kernel
    exact Option.some.inj (given.symm.trans known)

theorem fetches_iff_quiet : Fetches DownloadState .through anyHasher oneThread [7] quietServer :=
  (fetches_iff quietServer_honest).mpr ⟨by decide, nofun, Or.inl (by simp)⟩

/-- The same server with an empty resource has no range to send. -/
def emptyServer : StaticServer where
  honours := true
  head := some { url := "u", status := 405 }
  range := some { url := "u", status := 416 }

theorem fetches_not_empty :
    ¬ ∀ content server, server.Honest anyHasher content →
      Fetches DownloadState .through anyHasher oneThread content server := by
  intro always
  have honest : emptyServer.Honest anyHasher [] := by
    refine ⟨?_, _, rfl, rfl⟩
    rintro _ ⟨⟩ success
    cases success
  have fetches := always [] emptyServer honest
  unfold Fetches at fetches
  rw [honest.probe_empty rfl] at fetches
  · exact not_ends_error fetches
  · rintro ⟨response, ⟨⟩, success, -⟩
    cases success

end Download

end FastDownloader
