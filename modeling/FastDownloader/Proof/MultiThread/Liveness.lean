/-
This file drives a call to its successful end when every server answers.
-/

import FastDownloader.Proof.MultiThread.Landing

namespace FastDownloader

open Foundation

/-- The server sends exactly the bytes of the asked range. -/
def served (content : List UInt8) (first last : Nat) : Response where
  status := 206
  body := (content.drop first).take (last - first)

theorem served_matches (content : List UInt8) (first last : Nat) :
    Matches (ByteOf content) first (served content first last).body := by
  intro index byte present expected given
  simp only [served, List.getElem?_take, List.getElem?_drop] at present
  split_ifs at present with inside
  exact Option.some.inj (present.symm.trans given)

theorem served_length {content : List UInt8} {first last : Nat} (inside : last ≤ content.length) :
    (served content first last).body.length = last - first := by
  simp only [served, List.length_take, List.length_drop]
  omega

namespace Multi

variable {Text : Type} [SerdeJson Text]

/-- The servers send bytes of this content, and no write is lost. -/
abbrev Serving (content : List UInt8) (state : Disk Text × Multi) (act : Act) : Prop :=
  state.2.Answered (ByteOf content) act ∧ state.2.Landing act

/-- Correct servers can lead the call from one state to the other. -/
abbrev Leads (io : FileIo) (content : List UInt8) (job : Job) : Disk Text × Multi → Disk Text × Multi → Prop :=
  Reaches (Multi.step io job) (Serving content)

/-- Whatever the rest of the call does, this worker can move from one state to the other while nobody cancels. -/
def Drives (Text : Type) [SerdeJson Text] (io : FileIo) (content : List UInt8) (job : Job) (before after : Worker) :
    Prop :=
  ∀ (disk : Disk Text) (multi : Multi) (index : Nat), multi.phase = .running → multi.cancelled = false →
    multi.workers[index]? = some before → ∃ disk' downloaded,
      Leads io content job (disk, multi)
        (disk', { multi with workers := multi.workers.set index after, downloaded := downloaded })

variable {io : FileIo}

namespace Drives

variable {content : List UInt8} {job : Job} {before middle after : Worker}

theorem trans (first : Drives Text io content job before middle) (rest : Drives Text io content job middle after) :
    Drives Text io content job before after := by
  intro disk multi index running calm present
  obtain ⟨disk₁, count₁, reached⟩ := first disk multi index running calm present
  have inside := (List.getElem?_eq_some_iff.mp present).1
  obtain ⟨disk₂, count₂, further⟩ := rest disk₁
    { multi with workers := multi.workers.set index middle, downloaded := count₁ } index running calm
    (List.getElem?_set_self inside)
  simp only [List.set_set] at further
  exact ⟨disk₂, count₂, reached.trans further⟩

theorem refl (content : List UInt8) (job : Job) (worker : Worker) : Drives Text io content job worker worker := by
  intro disk multi index _ _ present
  obtain ⟨inside, rfl⟩ := List.getElem?_eq_some_iff.mp present
  refine ⟨disk, multi.downloaded, ?_⟩
  rw [List.set_getElem_self inside]
  exact .refl _

/-- A step without an orphan drives its worker. -/
theorem step (event : WorkerEvent) (effect : Effect) (answered : before.Answered (ByteOf content) event)
    (landing : before.Landing false event) (kept : ∀ offset bytes, effect ≠ .orphan offset bytes)
    (taken : before.step io job.cfg job.info.ifRangeValidator false event = some (after, effect)) :
    Drives Text io content job before after := by
  intro disk multi index running calm present
  have admitted : multi.Answered (ByteOf content) (.worker index event) ∧ multi.Landing (.worker index event) := by
    refine ⟨fun worker found => ?_, fun worker found => ?_⟩ <;>
      obtain rfl := Option.some.inj (present.symm.trans found)
    · exact answered
    · rw [calm]
      exact landing
  have stepped : Multi.step io job (disk, multi) (.worker index event) =
      some (applyEffect disk { multi with workers := multi.workers.set index after } effect) := by
    simp only [Multi.step, workerStep, running, present, calm, taken, Option.map_some]
  cases effect with
  | none => exact ⟨_, multi.downloaded, .single _ admitted stepped⟩
  | write offset bytes => exact ⟨_, multi.downloaded, .single _ admitted stepped⟩
  | add bytes => exact ⟨_, multi.downloaded + bytes, .single _ admitted stepped⟩
  | orphan offset bytes => exact absurd rfl (kept offset bytes)

/-- A background write can land. -/
theorem land {offset : Nat} {bytes : List UInt8} (carried : before.handle = .busy offset bytes) :
    Drives Text io content job before { before with handle := .idle } := by
  intro disk multi index _ _ present
  refine ⟨disk.write offset bytes, multi.downloaded, .single (.land index) ⟨trivial, trivial⟩ ?_⟩
  simp only [Multi.step, landStep, present, carried]

/-- A write takes effect at once, or it lands right after it was passed on. -/
theorem write {segment : Segment} {bytes : List UInt8} (at_pc : before.pc = .writing segment bytes)
    (idle : before.handle = .idle) : Drives Text io content job before (before.onWrote segment bytes) := by
  cases io with
  | through =>
      refine .step .wrote (.write segment.pos bytes) trivial trivial (by simp) ?_
      simp only [Worker.step, at_pc]
  | background =>
      have passed : Drives Text .background content job before
          { before.onWrote segment bytes with handle := .busy segment.pos bytes } := by
        refine .step .wrote .none trivial trivial (by simp) ?_
        simp only [Worker.step, at_pc, idle]
      have landed : Drives Text .background content job
          { before.onWrote segment bytes with handle := .busy segment.pos bytes } (before.onWrote segment bytes) := by
        have open_handle : before.onWrote segment bytes = { before.onWrote segment bytes with handle := .idle } := by
          rw [← idle]
          rfl
        rw [open_handle]
        exact land rfl
      exact passed.trans landed

end Drives

/-- The worker has ended well and has handed over its whole range. -/
structure Fulfilled (range : WorkerRange) (worker : Worker) : Prop where
  ended : worker.pc = .skipped ∨ worker.pc = .done (.ok ())
  start : worker.start = range.start
  stop : worker.stop = range.stop
  handed : worker.handed = range.stop

/-- A worker at its end returns without an error. -/
theorem drives_end (content : List UInt8) (job : Job) {worker : Worker} (at_pc : worker.pc = .head)
    (ended : worker.stop ≤ worker.current) :
    Drives Text io content job worker { worker with pc := .done (.ok ()) } := by
  have checked : worker.onHead false = { worker with pc := .done (.ok ()) } := by
    rw [Worker.onHead, if_neg (Nat.not_lt_of_le ended)]
  refine .step .check .none trivial trivial (by simp) ?_
  simp only [Worker.step, at_pc, checked]

/-- One answered request fulfils a worker. -/
theorem worker_fulfilled (content : List UInt8) (job : Job) {range : WorkerRange}
    (within : range.start ≤ range.current ∧ range.current ≤ range.stop) (inside : range.stop ≤ content.length) :
    ∃ worker, Fulfilled range worker ∧ Drives Text io content job (Worker.spawn range) worker := by
  by_cases empty : range.start ≥ range.stop
  · refine ⟨Worker.spawn range, ⟨?_, rfl, rfl, ?_⟩, .refl content job _⟩
    · simp [Worker.spawn, empty]
    · simp only [Worker.spawn]
      omega
  have spawned : Worker.spawn range =
      ⟨range.start, range.stop, range.current, range.current, 0, .head, .closed⟩ := by
    simp [Worker.spawn, empty]
  by_cases whole : range.stop ≤ range.current
  · refine ⟨{ Worker.spawn range with pc := .done (.ok ()) }, ⟨Or.inr rfl, rfl, rfl, ?_⟩, ?_⟩
    · simp only [Worker.spawn]
      omega
    · exact drives_end content job (by rw [spawned]) whole
  · -- The server sends the whole rest of the range, and it arrives as one chunk.
    rw [spawned]
    obtain ⟨start, current, stop⟩ := range
    dsimp only at within inside empty whole ⊢
    have length : (served content current stop).body.length = stop - current := served_length inside
    have suited := served_matches content current stop
    generalize (served content current stop).body = body at length suited
    have size : current + body.length = stop := by omega
    have flushes : Worker.flushReports io .idle true = true := by cases io <;> rfl
    have positive : 0 < body.length := by omega
    have asked : Drives Text io content job ⟨start, stop, current, current, 0, .head, .closed⟩
        ⟨start, stop, current, current, 0, .sent current, .closed⟩ := by
      refine .step .check .none trivial trivial (by simp) ?_
      simp [Worker.step, Worker.onHead, Nat.lt_of_not_le whole]
    have answered : Drives Text io content job ⟨start, stop, current, current, 0, .sent current, .closed⟩
        ⟨start, stop, current, current, 0, .opening current body, .closed⟩ := by
      refine .step (.reply (some ⟨206, none, none, body⟩)) .none ?_ trivial (by simp) rfl
      rintro _ ⟨⟩ _
      exact suited
    have opened : Drives Text io content job ⟨start, stop, current, current, 0, .opening current body, .closed⟩
        ⟨start, stop, current, current, 0, .streaming ⟨current, 0, body⟩, .idle⟩ :=
      .step (.opened true) .none trivial trivial (by simp) rfl
    have received : Drives Text io content job
        ⟨start, stop, current, current, 0, .streaming ⟨current, 0, body⟩, .idle⟩
        ⟨start, stop, current, current, 0, .writing ⟨current, 0, []⟩ body, .idle⟩ := by
      refine .step (.chunk body.length) .none trivial trivial (by simp) ?_
      have fits : ¬ current + body.length > stop := by omega
      simp [Worker.step, Worker.onChunk, Worker.writeLen, fits, List.ne_nil_of_length_pos positive]
    have wrote : Drives Text io content job
        ⟨start, stop, current, current, 0, .writing ⟨current, 0, []⟩ body, .idle⟩
        ⟨start, stop, current, stop, 0, .storing ⟨stop, body.length, []⟩ body.length, .idle⟩ := by
      have written : Drives Text io content job
          ⟨start, stop, current, current, 0, .writing ⟨current, 0, []⟩ body, .idle⟩
          (Worker.onWrote ⟨start, stop, current, current, 0, .writing ⟨current, 0, []⟩ body, .idle⟩
            ⟨current, 0, []⟩ body) := .write rfl rfl
      simpa [Worker.onWrote, size] using written
    have stored : Drives Text io content job
        ⟨start, stop, current, stop, 0, .storing ⟨stop, body.length, []⟩ body.length, .idle⟩
        ⟨start, stop, stop, stop, 0, .counting ⟨stop, body.length, []⟩ body.length, .idle⟩ :=
      .step .store .none trivial trivial (by simp) rfl
    have counted : Drives Text io content job
        ⟨start, stop, stop, stop, 0, .counting ⟨stop, body.length, []⟩ body.length, .idle⟩
        ⟨start, stop, stop, stop, 0, .finishing, .idle⟩ := by
      by_cases due : body.length ≥ job.cfg.flushIntervalBytes
      · have late : Drives Text io content job
            ⟨start, stop, stop, stop, 0, .counting ⟨stop, body.length, []⟩ body.length, .idle⟩
            ⟨start, stop, stop, stop, 0, .flushing ⟨stop, body.length, []⟩, .idle⟩ := by
          refine .step .count (.add body.length) trivial trivial (by simp) ?_
          simp [Worker.step, Worker.onCount, due]
        refine late.trans (.step (.flushed true) .none trivial trivial (by simp) ?_)
        simp [Worker.step, flushes, Worker.afterFlush]
      · refine .step .count (.add body.length) trivial trivial (by simp) ?_
        simp [Worker.step, Worker.onCount, due, Worker.afterFlush]
    have flushed : Drives Text io content job ⟨start, stop, stop, stop, 0, .finishing, .idle⟩
        ⟨start, stop, stop, stop, 0, .head, .closed⟩ := by
      refine .step (.flushed true) .none trivial trivial (by simp) ?_
      simp [Worker.step, flushes, Worker.release]
    refine ⟨⟨start, stop, stop, stop, 0, .done (.ok ()), .closed⟩, ⟨Or.inr rfl, rfl, rfl, rfl⟩, ?_⟩
    have request := (asked.trans answered).trans opened
    have body_written := (received.trans wrote).trans stored
    have ended := (counted.trans flushed).trans (drives_end content job rfl (Nat.le_refl stop))
    exact (request.trans body_written).trans ended

variable {content : List UInt8} {job : Job}

/-- The workers can be fulfilled one after another. -/
theorem workers_fulfilled {todo : List WorkerRange}
    (within : ∀ range ∈ todo, range.start ≤ range.current ∧ range.current ≤ range.stop)
    (inside : ∀ range ∈ todo, range.stop ≤ content.length) (disk : Disk Text) (multi : Multi)
    (running : multi.phase = .running) (calm : multi.cancelled = false) (done : List Worker)
    (split : multi.workers = done ++ todo.map Worker.spawn) :
    ∃ disk' rest downloaded, List.Forall₂ Fulfilled todo rest ∧
      Leads io content job (disk, multi)
        (disk', { multi with workers := done ++ rest, downloaded := downloaded }) := by
  induction todo generalizing disk multi done with
  | nil =>
      refine ⟨disk, [], multi.downloaded, .nil, ?_⟩
      rw [show done ++ [] = multi.workers from split.symm]
      exact .refl _
  | cons range todo ih =>
      simp only [List.mem_cons, forall_eq_or_imp] at within inside
      obtain ⟨worker, fulfilled, drives⟩ : ∃ worker, Fulfilled range worker ∧
          Drives Text io content job (Worker.spawn range) worker := worker_fulfilled content job within.1 inside.1
      have present : multi.workers[done.length]? = some (Worker.spawn range) := by
        rw [split]
        simp
      obtain ⟨disk₁, count, reached⟩ := drives disk multi done.length running calm present
      have moved : multi.workers.set done.length worker = (done ++ [worker]) ++ todo.map Worker.spawn := by
        rw [split]
        simp
      rw [moved] at reached
      obtain ⟨disk₂, rest, total, all, further⟩ := ih within.2 inside.2 disk₁
        { multi with workers := (done ++ [worker]) ++ todo.map Worker.spawn, downloaded := count }
        running calm (done ++ [worker]) rfl
      refine ⟨disk₂, worker :: rest, total, .cons fulfilled all, reached.trans ?_⟩
      simpa only [List.append_assoc, List.singleton_append] using further

/-- The state task loads the positions that are left and takes its snapshot. -/
theorem saver_loads (content : List UInt8) (job : Job) (disk : Disk Text) (multi : Multi) (stopping : multi.phase = .stopping)
    (plain : multi.saver.syncFile = false) {left : Nat} {loaded : List Nat}
    (at_pc : multi.saver.pc = .loading loaded) (rest : loaded.length + left = multi.workers.length) :
    ∃ state, Leads io content job
      (disk, multi) (disk, { multi with saver := { multi.saver with pc := .saving state } }) := by
  induction left generalizing multi loaded with
  | zero =>
      refine ⟨snapshot job multi.workers loaded, .single (.saver .load) ⟨trivial, trivial⟩ ?_⟩
      have complete : multi.workers[loaded.length]? = none := List.getElem?_eq_none (by omega)
      simp [Multi.step, saverStep, stopping, Saver.step, at_pc, complete, plain, applySaverEffect]
  | succ left ih =>
      have inside : loaded.length < multi.workers.length := by omega
      have present := List.getElem?_eq_getElem inside
      obtain ⟨state, further⟩ := ih { multi with saver := { multi.saver with
          pc := .loading (loaded ++ [min multi.workers[loaded.length].current multi.workers[loaded.length].stop]) } }
        stopping plain rfl (by simp; omega)
      refine ⟨state, .trans (.single (.saver .load) ⟨trivial, trivial⟩ ?_) further⟩
      simp [Multi.step, saverStep, stopping, Saver.step, at_pc, present, applySaverEffect]

/-- The state task can end once the workers have joined. -/
theorem saver_ends (content : List UInt8) (job : Job) (disk : Disk Text) (multi : Multi)
    (stopping : multi.phase = .stopping) (fresh : multi.saver = Saver.init) :
    ∃ disk' saver, saver.pc = .finished ∧
      Leads io content job (disk, multi)
        (disk', { multi with saver := saver }) := by
  by_cases unpaced : job.cfg.stateSaveInterval = 0
  · refine ⟨disk, ⟨.finished, false, false⟩, rfl, .single (.saver (.opened false)) ⟨trivial, trivial⟩ ?_⟩
    simp [Multi.step, saverStep, stopping, Saver.step, fresh, Saver.init, unpaced, applySaverEffect]
  have opened : Leads io content job
      (disk, multi) (disk, { multi with saver := ⟨.idle, false, false⟩ }) := by
    refine .single (.saver (.opened false)) ⟨trivial, trivial⟩ ?_
    simp [Multi.step, saverStep, stopping, Saver.step, fresh, Saver.init, unpaced, applySaverEffect]
  have halted : Leads io content job
      (disk, { multi with saver := ⟨.idle, false, false⟩ })
      (disk, { multi with saver := ⟨.loading [], false, true⟩ }) := by
    refine .single (.saver .halt) ⟨trivial, trivial⟩ ?_
    simp [Multi.step, saverStep, stopping, Saver.step, applySaverEffect]
  obtain ⟨state, loads⟩ : ∃ state, Leads io content job (disk, { multi with saver := ⟨.loading [], false, true⟩ })
      (disk, { multi with saver := ⟨.saving state, false, true⟩ }) :=
    saver_loads content job disk { multi with saver := ⟨.loading [], false, true⟩ } stopping rfl rfl (Nat.zero_add _)
  have saved : Leads io content job
      (disk, { multi with saver := ⟨.saving state, false, true⟩ })
      (disk.saveState (SerdeJson.toVec state), { multi with saver := ⟨.finished, false, true⟩ }) := by
    refine .single (.saver (.saved true)) ⟨trivial, trivial⟩ ?_
    simp [Multi.step, saverStep, stopping, Saver.step, applySaverEffect]
  exact ⟨_, ⟨.finished, false, true⟩, rfl, ((opened.trans halted).trans loads).trans saved⟩

/-- Workers that all ended well give no error. -/
theorem collect_fulfilled {ranges : List WorkerRange} {multi : Multi}
    (all : List.Forall₂ Fulfilled ranges multi.workers) : collect multi.results = (none, false) := by
  have silent : ∀ results : List Joined, (∀ result ∈ results, result = .returned (.ok ())) →
      collect results = (none, false) := by
    intro results good
    unfold collect
    induction results with
    | nil => rfl
    | cons result results ih =>
        simp only [List.mem_cons, forall_eq_or_imp] at good
        rw [List.foldl_cons, good.1]
        exact ih good.2
  refine silent _ fun result member => ?_
  obtain ⟨worker, present, returned⟩ := List.mem_filterMap.mp member
  obtain ⟨index, found⟩ := List.getElem?_of_mem present
  obtain ⟨range, _, fulfilled⟩ := forall₂_getElem? all.flip found
  rcases fulfilled.ended with skipped | ended
  · simp [skipped] at returned
  · simpa [ended] using returned.symm

theorem finished_of_fulfilled {range : WorkerRange} {worker : Worker} (fulfilled : Fulfilled range worker) :
    worker.finished = true := by
  rcases fulfilled.ended with ended | ended <;> simp [Worker.finished, ended]

/-- A call stays controlled wherever its servers lead it. -/
theorem Controlled.leads {first last : Disk Text × Multi} (controlled : Controlled (ByteOf content) job first.2)
    (reached : Leads io content job first last) : Controlled (ByteOf content) job last.2 := by
  obtain ⟨acts, run⟩ := reached
  exact run.invariant (fun state => Controlled (ByteOf content) job state.2)
    (fun _ _ _ held admitted taken => held.change (held.step_change admitted.1 taken)) controlled

omit [SerdeJson Text] in
/-- Workers that all ended well have counted the whole file. -/
theorem Controlled.counted {right : Nat → UInt8 → Prop} {ranges : List WorkerRange} {multi : Multi}
    (controlled : Controlled right job multi) (all : List.Forall₂ Fulfilled ranges multi.workers) :
    multi.downloaded = job.fileSize := by
  have ended : ∀ worker ∈ multi.workers, worker.uncounted = 0 ∧ worker.handed = worker.stop := by
    intro worker member
    obtain ⟨index, found⟩ := List.getElem?_of_mem member
    obtain ⟨range, _, fulfilled⟩ := forall₂_getElem? all.flip found
    exact ⟨uncounted_of_finished (finished_of_fulfilled fulfilled), fulfilled.handed.trans fulfilled.stop.symm⟩
  have settled : multi.uncounted = 0 := by
    refine List.sum_eq_zero fun debt member => ?_
    obtain ⟨worker, present, rfl⟩ := List.mem_map.mp member
    exact (ended worker present).1
  have accepted : multi.accepted = (multi.workers.map fun worker => worker.stop - worker.start).sum := by
    refine congrArg List.sum (List.map_congr_left fun worker member => ?_)
    rw [(ended worker member).2]
  have covered : (multi.workers.map fun worker => worker.stop - worker.start).sum = job.fileSize :=
    controlled.tiles.sum
  have counter := controlled.counter
  omega

/-- A call whose workers have all ended well can return without an error. -/
theorem ends_well (disk : Disk Text) {multi : Multi} {ranges : List WorkerRange}
    (controlled : Controlled (ByteOf content) job multi) (running : multi.phase = .running)
    (fresh : multi.saver = Saver.init) (all : List.Forall₂ Fulfilled ranges multi.workers) :
    ∃ last, Leads io content job (disk, multi) last ∧ last.2.outcome = some (.ok ()) := by
  have joined : Leads io content job (disk, multi) (disk, { multi with phase := .stopping }) := by
    refine .single (.main .join) ⟨trivial, trivial⟩ ?_
    have finished : multi.workers.all Worker.finished = true := by
      refine List.all_eq_true.mpr fun worker member => ?_
      obtain ⟨index, found⟩ := List.getElem?_of_mem member
      obtain ⟨range, _, fulfilled⟩ := forall₂_getElem? all.flip found
      exact finished_of_fulfilled fulfilled
    simp [Multi.step, mainStep, running, finished]
  obtain ⟨disk', saver, ended, saved⟩ := saver_ends content job disk { multi with phase := .stopping } rfl fresh
  have counted := controlled.counted all
  have silent : collect ({ multi with phase := .stopping, saver := saver } : Multi).results = (none, false) :=
    collect_fulfilled all
  have concluded : Leads io content job (disk', { multi with phase := .stopping, saver := saver })
      (disk', { multi with phase := .reopening, saver := saver }) := by
    have passed : ({ multi with phase := .stopping, saver := saver } : Multi).verdict job = .reopening := by
      unfold verdict concludeWith
      rw [silent]
      simp [counted]
    refine .single (.main .conclude) ⟨trivial, trivial⟩ ?_
    simp only [Multi.step, mainStep, ended, passed, if_true]
  have closed : Leads io content job (disk', { multi with phase := .reopening, saver := saver })
      (disk'.sync.deleteState, { multi with phase := .returned (.ok ()), saver := saver }) :=
    ((Reaches.single (.main (.created true)) ⟨trivial, trivial⟩ rfl).trans
      (.single (.main (.synced true)) ⟨trivial, trivial⟩ rfl)).trans (.single (.main (.deleted true)) ⟨trivial, trivial⟩ rfl)
  exact ⟨_, ((joined.trans saved).trans concluded).trans closed, rfl⟩

/-- Servers that answer can lead every call with chosen ranges to a return without an error. -/
theorem exists_success {disk : Disk Text} {ranges : List WorkerRange} (size : job.info.size = some content.length)
    (chosen : chooseRanges job job.fileSize disk.dlstate = some ranges) :
    ∃ last, Leads io content job (disk, (Multi.start job).begin ranges) last ∧ last.2.outcome = some (.ok ()) := by
  have fileSize : job.fileSize = content.length := by simp [Job.fileSize, size]
  obtain ⟨cover, nonempty⟩ := chooseRanges_cover chosen
  have inside : ∀ range ∈ ranges, range.stop ≤ content.length := fun range member =>
    fileSize ▸ (cover.tiles.bounds range member).2.2
  have prepared : Leads io content job (disk, (Multi.start job).begin ranges)
      ((disk.openCreate.setLen job.fileSize).sync, { (Multi.start job).begin ranges with phase := .running }) :=
    ((Reaches.single (.main (.created true)) ⟨trivial, trivial⟩ rfl).trans
      (.single (.main (.resized true)) ⟨trivial, trivial⟩ rfl)).trans (.single (.main (.synced true)) ⟨trivial, trivial⟩ rfl)
  obtain ⟨disk', workers, downloaded, all, worked⟩ := workers_fulfilled cover.within inside
    (disk.openCreate.setLen job.fileSize).sync { (Multi.start job).begin ranges with phase := .running }
    rfl rfl [] rfl
  have reached := prepared.trans worked
  have begun : Controlled (ByteOf content) job ((Multi.start job).begin ranges) :=
    begin_controlled cover nonempty rfl
  obtain ⟨last, led, returned⟩ := ends_well disk' (begun.leads reached) rfl rfl all
  exact ⟨last, reached.trans led, returned⟩

end Multi

end FastDownloader
