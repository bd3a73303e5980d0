/-
This file proves that a call of `multi_thread` outlasts a server which drops its first responses.
-/

import FastDownloader.Proof.Digest.Strongest
import FastDownloader.Proof.MultiThread.Retry
import FastDownloader.Proof.TestServer.Exchange

namespace FastDownloader

open Foundation TestServer

/-- The rest of the answer that the worker still reads. -/
def Worker.incoming (worker : Worker) : Option (List UInt8) :=
  match worker.pc with
  | .opening _ body => some body
  | .streaming segment | .writing segment _ | .storing segment _ | .counting segment _ | .flushing segment =>
      some segment.body
  | _ => none

/-- A connection that is not dropped still sends all that its worker reads. -/
def Worker.Wired (worker : Worker) (conn : Conn) : Prop :=
  ∀ body ∈ worker.incoming, conn.left ≤ body.length ∧ (conn.dropped = false → conn.left = body.length)

/-- A response arrives, or it is one that is dropped. -/
theorem arrive_cases {served : Served} {arrives : Bool} {reply : Option Response} {conn : Conn}
    (arrived : served.arrive arrives = some (reply, conn)) :
    (reply = some served.response ∧ conn = served.conn) ∨
      (reply = none ∧ conn = ⟨0, false⟩ ∧ served.conn.dropped = true) := by
  unfold Served.arrive at arrived
  split_ifs at arrived with head dropped
  · cases arrived
    exact Or.inl ⟨rfl, rfl⟩
  · cases arrived
    exact Or.inr ⟨rfl, rfl, dropped⟩

namespace Worker

variable {io : FileIo} {cfg : DownloaderConfig} {ifRange : Option String} {worker next : Worker} {event : WorkerEvent}
  {effect : Effect}

theorem fail_incoming (error : Error) : (worker.fail cfg error).incoming = none := by
  unfold fail
  dsimp only
  split_ifs <;> rfl

theorem afterFlush_incoming {segment : Segment} {body : List UInt8}
    (reads : body ∈ (worker.afterFlush segment).incoming) : body = segment.body := by
  unfold afterFlush at reads
  split_ifs at reads
  · cases reads
  · exact (Option.some.inj reads).symm

/-- Only an answer and a chunk change what is still to be read. -/
theorem step_incoming (other : ∀ response, event ≠ .reply (some response)) (whole : ∀ size, event ≠ .chunk size)
    (taken : worker.step io cfg ifRange false event = some (next, effect)) :
    ∀ body ∈ next.incoming, body ∈ worker.incoming := by
  intro body reads
  cases step_move taken with
  | answered pos response => exact absurd rfl (other response)
  | chunk segment size => exact absurd rfl (whole size)
  | checked =>
      unfold onHead at reads
      rw [if_neg Bool.false_ne_true] at reads
      split_ifs at reads <;> cases reads
  | opened pos body at_pc | stored segment written at_pc =>
      simpa only [incoming, at_pc] using reads
  | wrote segment bytes mode at_pc | passed segment bytes mode idle at_pc =>
      simpa only [incoming, at_pc, onWrote] using reads
  | counted segment written at_pc =>
      simp only [incoming, at_pc]
      unfold onCount at reads
      split_ifs at reads
      · exact reads
      · exact afterFlush_incoming reads ▸ rfl
  | flushed segment at_pc =>
      simp only [incoming, at_pc]
      exact afterFlush_incoming reads ▸ rfl
  | ended | stopped | slept | interrupted => cases reads
  | finished | gaveUp =>
      rw [release_fst] at reads
      cases reads
  | refused _ error =>
      rw [fail_incoming] at reads
      cases reads
  | broken _ error | torn _ _ _ =>
      rw [release_fst] at reads
      have nothing := reads.symm.trans (fail_incoming _)
      cases nothing

theorem onChunk_incoming {segment : Segment} {size : Nat} {body : List UInt8}
    (reads : body ∈ (worker.onChunk false segment size).incoming) : body = segment.body.drop size := by
  unfold onChunk at reads
  rw [if_neg Bool.false_ne_true] at reads
  dsimp only at reads
  split_ifs at reads
  · exact (Option.some.inj reads).symm
  · cases reads
  · exact (Option.some.inj reads).symm

/-- A worker reads no further when its request or its connection has failed. -/
theorem fault_incoming (fault : event.fault = true)
    (taken : worker.step io cfg ifRange false event = some (next, effect)) : next.incoming = none := by
  cases step_move taken with
  | refused _ error => exact fail_incoming error
  | broken _ error | torn _ _ _ =>
      rw [release_fst]
      exact fail_incoming _
  | gaveUp => rw [release_fst, incoming]
  | stopped => rfl
  | _ => cases fault

/-- A step of a worker fits what its connection carries. -/
theorem Wired.carried {conn moved : Conn} (wired : worker.Wired conn) (carried : conn.carry event = some moved)
    (taken : worker.step io cfg ifRange false event = some (next, effect)) : next.Wired moved := by
  intro body reads
  cases event with
  | reply answer => cases carried
  | chunk size =>
      simp only [Conn.carry, Option.ite_none_right_eq_some, Option.some.injEq] at carried
      obtain ⟨⟨-, fits⟩, rfl⟩ := carried
      cases step_move taken with
      | chunk segment _ at_pc =>
          obtain ⟨short, whole⟩ := wired segment.body (by rw [incoming, at_pc]; rfl)
          obtain rfl := onChunk_incoming reads
          rw [List.length_drop]
          exact ⟨by dsimp only; omega, fun kept => by rw [whole kept]⟩
      | refused _ _ fault | broken _ _ fault => cases fault
  | streamError =>
      rw [fault_incoming rfl taken] at reads
      cases reads
  | _ =>
      obtain rfl := Option.some.inj carried
      exact wired body (step_incoming (by rintro _ ⟨⟩) (by rintro _ ⟨⟩) taken body reads)

/-- What a connection carries may come at any time. -/
theorem Wired.retriable {content : List UInt8} {conn moved : Conn} (wired : worker.Wired conn)
    (carried : conn.carry event = some moved)
    (taken : worker.step io cfg ifRange false event = some (next, effect)) : worker.Retriable content event := by
  cases event with
  | reply answer => cases carried
  | chunk size =>
      simp only [Conn.carry, Option.ite_none_right_eq_some] at carried
      cases step_move taken with
      | chunk segment _ at_pc =>
          obtain ⟨short, -⟩ := wired segment.body (by rw [incoming, at_pc]; rfl)
          simp only [Retriable, unread, at_pc]
          omega
      | refused _ _ fault | broken _ _ fault => cases fault
  | _ => trivial

theorem unfinished_of_step {cancelled : Bool}
    (taken : worker.step io cfg ifRange cancelled event = some (next, effect)) : worker.finished = false := by
  unfold finished
  split
  next at_pc => simp [step, at_pc] at taken
  next at_pc => simp [step, at_pc] at taken
  next => rfl

/-- A worker that is answered reads what its new connection sends, and a worker whose request has failed reads
nothing. -/
theorem wired_served {served : Served} {arrives : Bool} {reply : Option Response} {conn : Conn}
    (partialContent : served.response.status = 206) (arrived : served.arrive arrives = some (reply, conn))
    (taken : worker.step io cfg ifRange false (.reply reply) = some (next, effect)) : next.Wired conn := by
  intro body reads
  rcases arrive_cases arrived with ⟨rfl, rfl⟩ | ⟨rfl, rfl, -⟩
  · cases step_move taken with
    | answered _ _ at_pc =>
        unfold onReply at reads
        rw [if_pos partialContent] at reads
        obtain rfl := Option.some.inj reads
        refine ⟨Nat.min_le_right .., fun kept => Nat.min_eq_right ?_⟩
        exact Nat.le_of_not_lt (of_decide_eq_false kept)
    | refused _ _ fault | broken _ _ fault => cases fault
  · rw [fault_incoming rfl taken] at reads
    cases reads

end Worker

/-- Nothing fails on the side of the downloader. -/
def WorkerEvent.calm : WorkerEvent → Bool
  | .opened ok | .flushed ok => ok
  | .writeFailed _ => false
  | _ => true

namespace Worker

variable {io : FileIo} {cfg : DownloaderConfig} {ifRange : Option String} {worker : Worker}

/-- A worker that does not wait for an answer can go on with what its connection still carries. -/
theorem Trying.carries {conn : Conn} (trying : worker.Trying cfg) (pending : worker.finished = false)
    (landed : worker.handle.flight = none) (wired : worker.Wired conn) (unasked : worker.requested = none) :
    ∃ event, event.calm = true ∧ event ≠ .chunk 0 ∧ (conn.carry event).isSome = true ∧
      (worker.step io cfg ifRange false event).isSome = true := by
  cases trying with
  | waiting at_pc => exact ⟨.slept, rfl, by rintro ⟨⟩, rfl, by simp [step, at_pc]⟩
  | exhausted given =>
      obtain ⟨source, at_pc⟩ := given
      simp [finished, at_pc] at pending
  | working healthy =>
      by_cases reading : ∃ segment, worker.pc = .streaming segment
      · -- The connection sends more, or it has been dropped, or it has sent everything.
        obtain ⟨segment, at_pc⟩ := reading
        obtain ⟨-, whole⟩ := wired segment.body (by rw [incoming, at_pc]; rfl)
        by_cases more : 0 < conn.left
        · exact ⟨.chunk conn.left, rfl, by simpa using Nat.ne_of_gt more, by simp [Conn.carry, more],
            by simp [step, at_pc]⟩
        · cases kept : conn.dropped with
          | true => exact ⟨.streamError, rfl, by rintro ⟨⟩, by simp [Conn.carry, kept], by simp [step, at_pc]⟩
          | false =>
              have all : segment.body.length = 0 := by
                have same := whole kept
                omega
              exact ⟨.streamEnd, rfl, by rintro ⟨⟩, rfl, by simp [step, at_pc, List.length_eq_zero_iff.mp all]⟩
      · obtain ⟨event, faultless, busy, enabled⟩ : ∃ event, worker.Faultless [] event ∧ event ≠ .chunk 0 ∧
            (worker.step io cfg ifRange false event).isSome = true := healthy.moves pending landed
        obtain ⟨⟨next, effect⟩, taken⟩ := Option.isSome_iff_exists.mp enabled
        refine ⟨event, ?_, busy, ?_, enabled⟩
        · cases event with
          | opened | flushed => exact faultless
          | writeFailed => cases faultless
          | _ => rfl
        · cases event with
          | reply answer =>
              cases answer with
              | none => cases faultless
              | some response =>
                  cases step_move taken with
                  | answered _ _ at_pc => simp [requested, at_pc] at unasked
                  | refused _ _ fault | broken _ _ fault => cases fault
          | chunk size =>
              cases step_move taken with
              | chunk segment _ at_pc => exact absurd ⟨segment, at_pc⟩ reading
              | refused _ _ fault | broken _ _ fault => cases fault
          | streamError => cases faultless
          | _ => rfl

end Worker

namespace TestServer

/-- A connection that the server drops fails once, and no other connection does. -/
theorem Conn.carry_spares {conn moved : Conn} {event : WorkerEvent} (calm : event.calm = true)
    (carried : conn.carry event = some moved) :
    event.failed.toNat + moved.dropped.toNat = conn.dropped.toNat := by
  cases event with
  | reply => cases carried
  | chunk size =>
      simp only [Conn.carry, Option.ite_none_right_eq_some, Option.some.injEq] at carried
      obtain ⟨-, rfl⟩ := carried
      exact Nat.zero_add _
  | streamError =>
      simp only [Conn.carry, Option.ite_none_right_eq_some, Option.some.injEq] at carried
      obtain ⟨dropped, rfl⟩ := carried
      rw [dropped]
      rfl
  | opened ok | flushed ok =>
      obtain rfl : ok = true := calm
      obtain rfl := Option.some.inj carried
      exact Nat.zero_add _
  | writeFailed => cases calm
  | _ =>
      obtain rfl := Option.some.inj carried
      exact Nat.zero_add _

/-- A response that is dropped fails once, before its head or in its body. -/
theorem arrive_spares {served : Served} {arrives : Bool} {reply : Option Response} {conn : Conn}
    (partialContent : served.response.status = 206) (arrived : served.arrive arrives = some (reply, conn)) :
    (WorkerEvent.reply reply).failed.toNat + conn.dropped.toNat = served.conn.dropped.toNat := by
  rcases arrive_cases arrived with ⟨rfl, rfl⟩ | ⟨rfl, rfl, dropped⟩
  · have fine : (WorkerEvent.reply (some served.response)).failed = false := by
      simp [WorkerEvent.failed, partialContent]
    rw [fine, Bool.toNat_false, Nat.zero_add]
  · rw [dropped]
    rfl

variable {content : List UInt8} {behavior : ServerBehavior} {request : Request}

/-- A server that drops a response counts it. -/
theorem handle_cases (whole : behavior.dropAfterBytes = 0) :
    ((handle content behavior request).1.dropAfter = maxU64 ∧
        ((handle content behavior request).2 = behavior ∨
          (handle content behavior request).2 =
            { behavior with dropFirstNResponses := behavior.dropFirstNResponses - 1 })) ∨
      (0 < behavior.dropFirstNResponses ∧ (handle content behavior request).2 =
        { behavior with dropFirstNResponses := behavior.dropFirstNResponses - 1 }) := by
  by_cases empty : content.length = 0
  · left
    simp only [handle, if_pos empty, true_or, and_true]
  · have counted : (handle content behavior request).2 =
        { behavior with dropFirstNResponses := behavior.dropFirstNResponses - 1 } := by
      simp only [handle, if_neg empty]
    by_cases first : behavior.dropFirstNResponses > 0
    · exact Or.inr ⟨first, counted⟩
    · refine Or.inl ⟨?_, Or.inr counted⟩
      simp only [handle, if_neg empty, if_neg first, whole, gt_iff_lt, Nat.lt_irrefl, if_false]

/-- The server stays as honest as it was, and each response that it drops is one of the first. -/
theorem handle_spares (fits : content.length < 2 ^ 64) (whole : behavior.dropAfterBytes = 0) (request : Request) :
    (handle content behavior request).1.conn.dropped.toNat + (handle content behavior request).2.dropFirstNResponses ≤
        behavior.dropFirstNResponses ∧
      (handle content behavior request).2.dropAfterBytes = 0 ∧
      ∀ other, honours (handle content behavior request).2 other = honours behavior other := by
  obtain ⟨-, short⟩ := handle_sized content behavior request
  obtain ⟨never, same⟩ | ⟨first, same⟩ :
      ((handle content behavior request).1.dropAfter = maxU64 ∧ _) ∨ _ := handle_cases whole
  · have kept : (handle content behavior request).1.conn.dropped = false := by
      refine decide_eq_false ?_
      rw [never, maxU64]
      omega
    rw [kept, Bool.toNat_false, Nat.zero_add]
    rcases same with same | same
    · rw [same]
      exact ⟨Nat.le_refl _, whole, fun _ => rfl⟩
    · rw [same]
      exact ⟨Nat.sub_le _ _, whole, fun _ => rfl⟩
  · have once := Bool.toNat_le (handle content behavior request).1.conn.dropped
    rw [same]
    exact ⟨by dsimp only; omega, whole, fun _ => rfl⟩

/-- Each worker has a connection that fits it. -/
def Wired (workers : List Worker) (conns : List Conn) : Prop :=
  ∀ (index : Nat) (worker : Worker), workers[index]? = some worker →
    ∃ conn, conns[index]? = some conn ∧ worker.Wired conn

theorem Wired.set {workers : List Worker} {conns : List Conn} {index : Nat} {worker moved : Worker} {conn : Conn}
    (wired : Wired workers conns) (present : workers[index]? = some worker) (fits : moved.Wired conn) :
    Wired (workers.set index moved) (conns.set index conn) := by
  intro place other found
  obtain ⟨old, held, -⟩ := wired index worker present
  by_cases same : index = place
  · subst same
    rw [List.getElem?_set_self (List.getElem?_eq_some_iff.mp present).1] at found
    obtain rfl := Option.some.inj found
    exact ⟨conn, List.getElem?_set_self (List.getElem?_eq_some_iff.mp held).1, fits⟩
  · rw [List.getElem?_set_ne same] at found ⊢
    exact wired place other found

/-- Nobody cancels, and nothing fails on the side of the downloader. -/
def HostedAct.calm : HostedAct → Bool
  | .serve _ _ => true
  | .act .cancel => false
  | .act (.main (.created ok)) | .act (.main (.resized ok)) => ok
  | .act (.worker _ event) => event.calm
  | .act _ => true

variable {Text : Type} [SerdeJson Text]

/-- So many responses are dropped in all: some have failed, some are under way, and the server has some to come. -/
structure Recovering (content : List UInt8) (job : Job) (drops : Nat) (hosted : Hosted Text) : Prop where
  enduring : Multi.Enduring content job hosted.disk hosted.multi
  honest : honours hosted.behavior ⟨none, job.info.ifRangeValidator⟩ = true
  whole : hosted.behavior.dropAfterBytes = 0
  wired : Wired hosted.multi.workers hosted.conns
  spared : ∃ past, hosted.multi.Tallied job.cfg past ∧
    past.countP Act.failed + (hosted.conns.map fun conn => conn.dropped.toNat).sum +
      hosted.behavior.dropFirstNResponses ≤ drops

/-- Only a tick of the state task leaves the call where it is. -/
def Hosted.Idle (hosted : Hosted Text) : HostedAct → Prop
  | .serve _ _ => False
  | .act act => hosted.multi.Idle act

/-- What a step does to a call that recovers. -/
structure Recovers (content : List UInt8) (job : Job) (drops : Nat) (hosted : Hosted Text) (label : HostedAct)
    (next : Hosted Text) : Prop where
  recovering : Recovering content job drops next
  falls : next.multi.toil job next.disk < hosted.multi.toil job hosted.disk ∨
    (hosted.Idle label ∧ next.multi.toil job next.disk ≤ hosted.multi.toil job hosted.disk)

variable {job : Job} {drops : Nat} {hosted next : Hosted Text}

/-- No other step moves a worker. -/
theorem other_taken {disk : Disk Text} {multi : Multi} {act : Act} {result : Disk Text × Multi}
    (enduring : Multi.Enduring content job disk multi) (other : ∀ index event, act ≠ .worker index event)
    (taken : Multi.step .through job (disk, multi) act = some result) : result.2.workers = multi.workers := by
  cases act with
  | cancel =>
      cases taken
      rfl
  | main event =>
      obtain ⟨phase, same, -⟩ := Multi.mainStep_move enduring.tracked.controlled.begun taken
      rw [same]
  | worker index event => exact absurd rfl (other index event)
  | saver event =>
      simp only [Multi.step, Multi.saverStep] at taken
      split at taken
      · obtain ⟨⟨saver, effect⟩, _, rfl⟩ := Option.map_eq_some_iff.mp taken
        rfl
      · obtain ⟨⟨saver, effect⟩, _, rfl⟩ := Option.map_eq_some_iff.mp taken
        rfl
      · cases taken
  | land index | lose index kept =>
      obtain ⟨worker, offset, bytes, present, carried⟩ := Multi.landStep_busy taken
      exact absurd carried (enduring.tracked.not_carried present)
  | landOrphan index | loseOrphan index kept =>
      obtain ⟨offset, bytes, present⟩ := Multi.orphanStep_present taken
      exact absurd present enduring.tracked.not_dropped

theorem sent_of_requested {worker : Worker} {pos : Nat} (asked : worker.requested = some pos) :
    worker.pc = .sent pos := by
  unfold Worker.requested at asked
  split at asked
  · rename_i at_pc
    rw [at_pc, Option.some.inj asked]
  · cases asked

/-- What a worker is served is what it may be answered with. -/
theorem served_retriable {right : Nat → UInt8 → Prop} {worker : Worker} {pos : Nat} (fits : content.length < 2 ^ 64)
    (honest : honours behavior ⟨none, job.info.ifRangeValidator⟩ = true) (sound : worker.Sound right)
    (inside : worker.stop ≤ content.length) (asked : worker.requested = some pos) :
    (handle content behavior (worker.request job.info.ifRangeValidator pos)).1.response.status = 206 ∧
      worker.Retriable content
        (.reply (some (handle content behavior (worker.request job.info.ifRangeValidator pos)).1.response)) := by
  have aligned := sound.aligned
  simp only [Worker.Aligned, sent_of_requested asked] at aligned
  have brings : Brings content behavior (worker.request job.info.ifRangeValidator pos) pos worker.stop :=
    worker_brings fits job.info.ifRangeValidator aligned.2.2 inside
  obtain ⟨partialContent, body, -⟩ := brings.part honest
  refine ⟨partialContent, Or.inr fun other place => ?_⟩
  obtain rfl := Option.some.inj (asked.symm.trans place)
  exact ⟨partialContent, body⟩

theorem serve_taken {index : Nat} {arrives : Bool} (taken : hosted.step content job (.serve index arrives) = some next) :
    ∃ (worker : Worker) (pos : Nat) (answer : Served × ServerBehavior) (reply : Option Response) (conn : Conn),
      hosted.multi.workers[index]? = some worker ∧ worker.requested = some pos ∧
      answer = handle content hosted.behavior (worker.request job.info.ifRangeValidator pos) ∧
      answer.1.arrive arrives = some (reply, conn) ∧
      Multi.step .through job (hosted.disk, hosted.multi) (.worker index (.reply reply)) =
        some (next.disk, next.multi) ∧
      next.behavior = answer.2 ∧ next.conns = hosted.conns.set index conn := by
  obtain ⟨worker, present, answered⟩ := Option.bind_eq_some_iff.mp taken
  obtain ⟨pos, asked, sent⟩ := Option.bind_eq_some_iff.mp answered
  obtain ⟨⟨reply, conn⟩, arrived, replied⟩ := Option.bind_eq_some_iff.mp sent
  obtain ⟨after, stepped, rfl⟩ := Option.map_eq_some_iff.mp replied
  exact ⟨worker, pos, _, reply, conn, present, asked, rfl, arrived, stepped, rfl, rfl⟩

/-- The answer of the server, or its failure, takes a worker on. -/
theorem Recovering.serve {index : Nat} {arrives : Bool} (recovering : Recovering content job drops hosted)
    (fits : content.length < 2 ^ 64) (size : job.fileSize = content.length)
    (taken : hosted.step content job (.serve index arrives) = some next) :
    Recovers content job drops hosted (.serve index arrives) next := by
  obtain ⟨worker, pos, answer, reply, conn, present, asked, same, arrived, stepped, behaves, sent⟩ := serve_taken taken
  have enduring := recovering.enduring
  have controlled := enduring.tracked.controlled
  have member := List.mem_of_getElem? present
  obtain ⟨partialContent, retriable⟩ := served_retriable fits recovering.honest (controlled.sound worker member)
    (size ▸ (controlled.tiles.bounds worker member).2.2) asked
  obtain ⟨few, whole, honest⟩ :=
    handle_spares fits recovering.whole (worker.request job.info.ifRangeValidator pos)
  rw [← same] at partialContent retriable few whole honest
  have allowed : hosted.multi.Retriable content (.worker index (.reply reply)) := by
    intro other found
    obtain rfl := Option.some.inj (present.symm.trans found)
    rcases arrive_cases arrived with ⟨rfl, -⟩ | ⟨rfl, -⟩
    · exact retriable
    · trivial
  have endures := enduring.step size allowed stepped
  obtain ⟨-, _, moved, effect, found, own, workers⟩ := Multi.worker_taken stepped
  obtain rfl := Option.some.inj (present.symm.trans found)
  rw [enduring.calm] at own
  obtain ⟨old, held, -⟩ := recovering.wired index worker present
  obtain ⟨past, tallied, bounded⟩ := recovering.spared
  have total := sum_map_set (fun conn : Conn => conn.dropped.toNat) conn held
  have spares := arrive_spares partialContent arrived
  refine ⟨⟨endures.enduring, ?_, ?_, ?_, past ++ [_], endures.counted past tallied, ?_⟩, Or.inl ?_⟩
  · rw [behaves, honest]
    exact recovering.honest
  · rw [behaves]
    exact whole
  · rw [workers, sent]
    exact recovering.wired.set present (Worker.wired_served partialContent arrived own)
  · rw [countP_concat, Act.failed, behaves, sent]
    omega
  · exact endures.falls.resolve_right fun idle => by cases idle.1

theorem act_taken {act : Act} (taken : hosted.step content job (.act act) = some next) :
    transmit hosted.conns act = some next.conns ∧
      Multi.step .through job (hosted.disk, hosted.multi) act = some (next.disk, next.multi) ∧
      next.behavior = hosted.behavior := by
  obtain ⟨conns, sent, moved⟩ := Option.bind_eq_some_iff.mp taken
  obtain ⟨after, stepped, rfl⟩ := Option.map_eq_some_iff.mp moved
  exact ⟨sent, stepped, rfl⟩

/-- A worker goes on with what its connection carries. -/
theorem Recovering.worker {index : Nat} {event : WorkerEvent} (recovering : Recovering content job drops hosted)
    (size : job.fileSize = content.length) (calm : event.calm = true)
    (taken : hosted.step content job (.act (.worker index event)) = some next) :
    Recovers content job drops hosted (.act (.worker index event)) next := by
  obtain ⟨sent, stepped, behaves⟩ := act_taken taken
  obtain ⟨conn, held, carried⟩ := Option.bind_eq_some_iff.mp sent
  obtain ⟨left, carried, conns⟩ := Option.map_eq_some_iff.mp carried
  have enduring := recovering.enduring
  obtain ⟨-, worker, moved, effect, present, own, workers⟩ := Multi.worker_taken stepped
  rw [enduring.calm] at own
  obtain ⟨same, alike, wired⟩ := recovering.wired index worker present
  obtain rfl := Option.some.inj (held.symm.trans alike)
  have allowed : hosted.multi.Retriable content (.worker index event) := by
    intro other found
    obtain rfl := Option.some.inj (present.symm.trans found)
    exact wired.retriable carried own
  have endures := enduring.step size allowed stepped
  obtain ⟨past, tallied, bounded⟩ := recovering.spared
  have total := sum_map_set (fun conn : Conn => conn.dropped.toNat) left held
  have spares := Conn.carry_spares calm carried
  refine ⟨⟨endures.enduring, ?_, ?_, ?_, past ++ [_], endures.counted past tallied, ?_⟩, endures.falls⟩
  · rw [behaves]
    exact recovering.honest
  · rw [behaves]
    exact recovering.whole
  · rw [workers, ← conns]
    exact recovering.wired.set present (wired.carried carried own)
  · rw [countP_concat, Act.failed, behaves, ← conns]
    omega

/-- The other tasks go on without the server. -/
theorem Recovering.other {act : Act} (recovering : Recovering content job drops hosted)
    (size : job.fileSize = content.length) (calm : (HostedAct.act act).calm = true)
    (other : ∀ index event, act ≠ .worker index event)
    (taken : hosted.step content job (.act act) = some next) :
    Recovers content job drops hosted (.act act) next := by
  obtain ⟨sent, stepped, behaves⟩ := act_taken taken
  have enduring := recovering.enduring
  have allowed : hosted.multi.Retriable content act := by
    cases act with
    | worker index event => exact absurd rfl (other index event)
    | cancel => cases calm
    | main event =>
        cases event with
        | created | resized => exact calm
        | _ => trivial
    | _ => trivial
  have fine : act.failed = false := by
    cases act with
    | worker index event => exact absurd rfl (other index event)
    | _ => rfl
  have conns : next.conns = hosted.conns := by
    cases act with
    | worker index event => exact absurd rfl (other index event)
    | _ => exact (Option.some.inj sent).symm
  have endures := enduring.step size allowed stepped
  obtain ⟨past, tallied, bounded⟩ := recovering.spared
  refine ⟨⟨endures.enduring, ?_, ?_, ?_, past ++ [_], endures.counted past tallied, ?_⟩, endures.falls⟩
  · rw [behaves]
    exact recovering.honest
  · rw [behaves]
    exact recovering.whole
  · rw [other_taken enduring other stepped, conns]
    exact recovering.wired
  · rw [countP_concat, fine, behaves, conns]
    exact bounded

theorem Recovering.step {label : HostedAct} (recovering : Recovering content job drops hosted)
    (fits : content.length < 2 ^ 64) (size : job.fileSize = content.length) (calm : label.calm = true)
    (taken : hosted.step content job label = some next) : Recovers content job drops hosted label next := by
  cases label with
  | serve index arrives => exact recovering.serve fits size taken
  | act act =>
      cases act with
      | worker index event => exact recovering.worker size calm taken
      | _ => exact recovering.other size calm (by rintro _ _ ⟨⟩) taken

/-- A call that recovers can go on until it returns. -/
theorem Recovering.moves (recovering : Recovering content job drops hosted)
    (pending : hosted.multi.outcome = none) :
    ∃ label : HostedAct, label.calm = true ∧ ¬ hosted.Idle label ∧ (hosted.step content job label).isSome = true := by
  have enduring := recovering.enduring
  obtain ⟨act, allowed, busy, enabled⟩ := enduring.moves pending
  by_cases working : ∃ index event, act = .worker index event
  · obtain ⟨index, event, rfl⟩ := working
    obtain ⟨next, taken⟩ := Option.isSome_iff_exists.mp enabled
    obtain ⟨running, worker, moved, effect, present, own, -⟩ := Multi.worker_taken taken
    have member := List.mem_of_getElem? present
    obtain ⟨conn, held, wired⟩ := recovering.wired index worker present
    cases asked : worker.requested with
    | some pos =>
        refine ⟨.serve index true, rfl, not_false, ?_⟩
        simp [Hosted.step, Served.arrive, present, asked, Multi.step, Multi.workerStep, running, Worker.step,
          sent_of_requested asked]
    | none =>
        obtain ⟨event, calm, busy, carries, enabled⟩ : ∃ event : WorkerEvent, event.calm = true ∧ event ≠ .chunk 0 ∧
            (conn.carry event).isSome = true ∧
            (worker.step .through job.cfg job.info.ifRangeValidator false event).isSome = true :=
          (enduring.trying worker member).carries (Worker.unfinished_of_step own)
            (enduring.tracked.landed worker member) wired asked
        refine ⟨.act (.worker index event), calm, busy, ?_⟩
        obtain ⟨left, carried⟩ := Option.isSome_iff_exists.mp carries
        simpa [Hosted.step, transmit, held, carried, Multi.step, Multi.workerStep, running, present, enduring.calm]
          using enabled
  · have other : ∀ index event, act ≠ .worker index event := fun index event same => working ⟨index, event, same⟩
    refine ⟨.act act, ?_, busy, ?_⟩
    · cases act with
      | worker index event => exact absurd rfl (other index event)
      | cancel => exact allowed.elim
      | main event =>
          cases event with
          | created | resized => exact allowed
          | _ => rfl
      | _ => rfl
    · cases act with
      | worker index event => exact absurd rfl (other index event)
      | _ => simpa [Hosted.step, transmit] using enabled

omit [SerdeJson Text] in
/-- A call recovers from the start. -/
theorem begin_recovering {disk : Disk Text} {ranges : List WorkerRange}
    (enduring : Multi.Enduring content job disk ((Multi.start job).begin ranges))
    (honest : honours behavior ⟨none, job.info.ifRangeValidator⟩ = true) (whole : behavior.dropAfterBytes = 0) :
    Recovering content job behavior.dropFirstNResponses (Hosted.begin disk behavior job ranges) where
  enduring := enduring
  honest := honest
  whole := whole
  wired := by
    intro index worker present
    obtain ⟨range, held, rfl⟩ : ∃ range, ranges[index]? = some range ∧ Worker.spawn range = worker := by
      simpa [Hosted.begin, Multi.begin] using present
    refine ⟨⟨0, false⟩, by rw [Hosted.begin, List.getElem?_map, held]; rfl, fun body reads => ?_⟩
    unfold Worker.spawn Worker.incoming at reads
    dsimp only at reads
    split_ifs at reads <;> cases reads
  spared := by
    have none_dropped : ((ranges.map fun _ => (⟨0, false⟩ : Conn)).map fun conn => conn.dropped.toNat).sum = 0 := by
      simp
    refine ⟨[], Multi.begin_tallied _ _, ?_⟩
    simp only [Hosted.begin, none_dropped, List.countP_nil]
    omega

/--
A call that has probed the server survives every response that the server drops, before its head has arrived or in its
body, as long as these are fewer than the attempts of one worker. It comes to its end, and then it has the whole content.
-/
theorem drops_recovered {disk : Disk Text} {ranges : List WorkerRange} {threadCount minChunk : Nat}
    {base64 : Digest.Base64Standard} {url : String} {range : Option ProbeResponse} (fits : content.length < 2 ^ 64)
    (probed : probe (some (handleHead base64 content behavior url)) range = .ok job.info)
    (honest : honours behavior ⟨none, job.info.ifRangeValidator⟩ = true) (whole : behavior.dropAfterBytes = 0)
    (few : behavior.dropFirstNResponses < job.cfg.budget)
    (chosen : splitWorkers content.length threadCount minChunk = some ranges ∨
      ∃ state : DownloadState, state.validate = .ok () ∧ state.fileSize = content.length ∧
        state.workers = ranges ∧
        ∀ position, Named ranges position → content[position]? = some (disk.cell position).byte) :
    Settles (Hosted.step content job) (fun _ label => label.calm = true) Hosted.Idle
        (fun hosted => hosted.multi.outcome.isSome = true) (Hosted.begin disk behavior job ranges) ∧
      ∀ labels last result, Run (Hosted.step content job) (fun _ label => label.calm = true)
          (Hosted.begin disk behavior job ranges) labels last → last.multi.outcome = some result →
        result = .ok () ∧ last.disk.contents = some content := by
  have supports : behavior.supportRange = true := (Bool.and_eq_true_iff.mp (Bool.and_eq_true_iff.mp honest).1).1
  obtain ⟨info, told, size, -⟩ := probe_learns fits behavior base64 url range (Or.inl supports)
  obtain rfl : info = job.info := Except.ok.inj (told.symm.trans probed)
  have fileSize : job.fileSize = content.length := by simp [Job.fileSize, size]
  obtain ⟨cover, nonempty, correct⟩ := Multi.chosen_cover size chosen
  have begun := begin_recovering (Multi.begin_enduring cover nonempty correct) honest whole
  constructor
  · have ranked : Ranked (Hosted.step content job) (fun (_ : Hosted Text) label => label.calm = true) Hosted.Idle
        (fun hosted => hosted.multi.outcome.isSome = true)
        (Recovering content job behavior.dropFirstNResponses) (fun hosted => hosted.multi.toil job hosted.disk) := by
      refine ⟨?_, ?_, fun hosted recovering pending => recovering.moves (Option.not_isSome_iff_eq_none.mp pending)⟩
      · exact fun before label after recovering calm taken => (recovering.step fits fileSize calm taken).recovering
      · exact fun before label after recovering calm taken => (recovering.step fits fileSize calm taken).falls
    exact ranked.settles begun
  · intro labels last result run returned
    have recovering := run.invariant (Recovering content job behavior.dropFirstNResponses)
      (fun before label after recovering calm taken => (recovering.step fits fileSize calm taken).recovering) begun
    obtain ⟨past, tallied, bounded⟩ := recovering.spared
    have ended := (Multi.outcome_iff _ _).mp returned
    obtain ⟨enough, -⟩ := recovering.enduring.result_iff tallied ended
    have succeeded : result = .ok () := by
      refine enough.mpr fun index _ => Nat.lt_of_le_of_lt (failures_le index past) ?_
      omega
    subst succeeded
    exact ⟨rfl, recovering.enduring.tracked.contents fileSize ended⟩

/-- This server drops its first two responses. -/
def flakier : ServerBehavior := { flaky with dropFirstNResponses := 2 }

/-- A resource of two bytes without a validator. -/
def twoBytes : Job where
  info := ⟨"u", some 2, fits_two, true, none, none, none⟩
  threadCount := 1
  cfg := {}

/-- The first answer never arrives, the second one breaks off behind one byte, and the worker asks for the other. -/
def droppedLabels : List HostedAct :=
  [.act (.main (.created true)), .act (.main (.resized true)), .act (.main (.synced true)), .act (.worker 0 .check),
    .serve 0 false, .act (.worker 0 .slept), .act (.worker 0 .check), .serve 0 true,
    .act (.worker 0 (.opened true)), .act (.worker 0 (.chunk 1)), .act (.worker 0 .wrote), .act (.worker 0 .store),
    .act (.worker 0 .count), .act (.worker 0 .streamError), .act (.worker 0 .slept),
    .act (.worker 0 .check), .serve 0 true, .act (.worker 0 (.opened true)), .act (.worker 0 (.chunk 1)),
    .act (.worker 0 .wrote), .act (.worker 0 .store), .act (.worker 0 .count), .act (.worker 0 (.flushed true)),
    .act (.worker 0 .check), .act (.main .join), .act (.saver (.opened true)), .act (.saver .halt),
    .act (.saver .load), .act (.saver .load), .act (.saver (.saved true)), .act (.main .conclude),
    .act (.main (.created true)), .act (.main (.synced true)), .act (.main (.deleted true))]

def droppedRun : Option (Hosted DownloadState) :=
  replay (Hosted.step [7, 8] twoBytes) (Hosted.begin ⟨none, none⟩ flakier twoBytes [⟨0, 0, 2⟩]) droppedLabels

theorem drops_recovered_flaky : (droppedRun.get rfl).disk.contents = some [7, 8] := by
  have split : splitWorkers [(7 : UInt8), 8].length 1 1 = some [⟨0, 0, 2⟩] := rfl
  have probed : probe (some (handleHead Digest.base64Crate [7, 8] flakier "u")) none = .ok twoBytes.info := by rfl
  have run : Run (Hosted.step [7, 8] twoBytes) (fun _ label => label.calm = true)
      (Hosted.begin ⟨none, none⟩ flakier twoBytes [⟨0, 0, 2⟩]) droppedLabels (droppedRun.get rfl) :=
    run_of_replay (by decide +kernel) (Option.some_get _).symm
  exact ((drops_recovered (by decide) probed rfl rfl (by decide) (Or.inl split)).2 droppedLabels _ (.ok ()) run rfl).2

end TestServer

end FastDownloader
