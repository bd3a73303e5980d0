/-
This file proves that the server of the integration tests reads what the downloader asks for, and that the downloader
reads what the server answers.
-/

import FastDownloader.Model.TestServer
import FastDownloader.Proof.Filename.Extended

namespace FastDownloader

open Foundation

namespace TestServer

variable {content : List UInt8} {behavior : ServerBehavior} {request : Request} {number : Nat}

theorem isDigit_of_mem {char : Char} (member : char ∈ (toString number).toList) : char.isDigit = true := by
  rw [Nat.toString_eq_repr, Nat.toList_repr] at member
  exact Nat.isDigit_of_mem_toDigits (by decide) (by decide) member

theorem bounds_of_isDigit {char : Char} (digit : char.isDigit = true) : 48 ≤ char.toNat ∧ char.toNat ≤ 57 := by
  simp only [Char.isDigit, Bool.and_eq_true, decide_eq_true_eq, UInt32.le_iff_toNat_le] at digit
  exact digit

theorem toString_ne_nil (number : Nat) : (toString number).toList ≠ [] := by
  rw [Nat.toString_eq_repr, Nat.toList_repr]
  exact Nat.toDigits_ne_nil

/-- A number is read back from its decimal digits. -/
theorem parseU64_toString (fits : number < 2 ^ 64) : parseU64 (toString number).toList = some number := by
  have digits : ∀ char ∈ (toString number).toList, char.isDigit = true := fun char => isDigit_of_mem
  have nonempty := toString_ne_nil number
  have value : (toString number).toList.foldl (fun value digit => 10 * value + (digit.toNat - 48)) 0 = number := by
    rw [Nat.toString_eq_repr, Nat.toList_repr]
    exact Nat.ofDigitChars_ten_toDigits
  have read : parseDigits (toString number).toList = some number := by
    unfold parseDigits
    rw [value, if_neg, if_pos fits]
    simpa [nonempty] using digits
  unfold parseU64
  split
  next shape =>
    have sign := digits '+' (shape ▸ List.mem_cons_self)
    exact absurd sign (by decide)
  next => exact read

/-- No digit is stripped. -/
theorem trim_toString (number : Nat) : Filename.trim (toString number).toList = (toString number).toList := by
  refine strip_self fun char member => ?_
  have bounds := bounds_of_isDigit (isDigit_of_mem member)
  simp only [Filename.isWhitespace, Bool.or_eq_false_iff, Bool.and_eq_false_iff, decide_eq_false_iff_not]
  omega

theorem not_mem_toString {mark : Char} (other : mark.isDigit = false) (number : Nat) :
    mark ∉ (toString number).toList := by
  intro member
  exact Bool.false_ne_true (other.symm.trans (isDigit_of_mem member))

theorem parseRangeSingle_written {start : Nat} (fits : start < 2 ^ 64) (behind : String) :
    parseRangeSingle ("bytes=" ++ toString start ++ "-" ++ behind).toList =
      if Filename.trim behind.toList = [] then some (start, maxU64)
      else (parseU64 (Filename.trim behind.toList)).map fun stop => (start, stop) := by
  have written : ("bytes=" ++ toString start ++ "-" ++ behind).toList =
      "bytes=".toList ++ ((toString start).toList ++ '-' :: behind.toList) := by
    rw [String.toList_append, String.toList_append, String.toList_append, List.append_assoc, List.append_assoc]
    rfl
  have marked : "bytes=".toList.isPrefixOf
      ("bytes=".toList ++ ((toString start).toList ++ '-' :: behind.toList)) = true :=
    List.isPrefixOf_iff_prefix.mpr (List.prefix_append _ _)
  rw [written, parseRangeSingle, if_pos marked]
  have rest : ("bytes=".toList ++ ((toString start).toList ++ '-' :: behind.toList)).drop 6 =
      (toString start).toList ++ '-' :: behind.toList := rfl
  rw [rest, Filename.splitOnce_append (not_mem_toString (by decide) start), Option.bind_some]
  dsimp only
  rw [trim_toString, parseU64_toString fits, Option.bind_some]

/-- The range of a worker is read as its first and its last position. -/
theorem parseRangeSingle_part {start stop : Nat} (first : start < 2 ^ 64) (last : stop < 2 ^ 64) :
    parseRangeSingle s!"bytes={start}-{stop}".toList = some (start, stop) := by
  have read := parseRangeSingle_written first (toString stop)
  rw [trim_toString, if_neg (toString_ne_nil stop), parseU64_toString last] at read
  exact read

/-- The range of a resumed call is read as an open one. -/
theorem parseRangeSingle_open {start : Nat} (first : start < 2 ^ 64) :
    parseRangeSingle s!"bytes={start}-".toList = some (start, maxU64) := by
  have read := parseRangeSingle_written first ""
  have nothing : Filename.trim "".toList = [] := rfl
  rw [if_pos nothing, String.append_empty] at read
  exact read

/-- The downloader takes the text behind the slash for the total. -/
theorem afterLastSlash_written (front : String) (total : Nat) :
    afterLastSlash (front ++ "/" ++ toString total).toList = (toString total).toList := by
  have digits : ∀ char ∈ (toString total).toList.reverse, (char ≠ '/' : Bool) = true := by
    intro char member
    apply decide_eq_true
    rintro rfl
    exact not_mem_toString (by decide) total (List.mem_reverse.mp member)
  rw [afterLastSlash, String.toList_append, String.toList_append, List.reverse_append, List.reverse_append,
    List.takeWhile_append_of_pos digits]
  simp

/-- A range that is honoured is cut at the end of the content. -/
theorem handle_part {start stop : Nat} (read : (request.range.bind fun value => parseRangeSingle value.toList) =
    some (start, stop)) (honoured : honours behavior request = true) (inside : start < content.length)
    (order : start ≤ stop) :
    (handle content behavior request).1.response =
      ⟨206, some s!"bytes {start}-{min stop (content.length - 1)}/{content.length}",
        some (toString ((content.drop start).take (min stop (content.length - 1) + 1 - start)).length),
        (content.drop start).take (min stop (content.length - 1) + 1 - start)⟩ := by
  have decided : decideRange content.length behavior request = (206, start, stop) := by
    rw [decideRange, read]
    exact if_pos honoured
  have present : ¬ content.length = 0 := by omega
  have first : min start content.length = start := Nat.min_eq_left (Nat.le_of_lt inside)
  have last : min stop (content.length - 1) ≥ start := by omega
  simp only [handle, decided, first, if_neg present, if_pos last, if_true]

/-- Otherwise the whole content is sent. -/
theorem handle_whole (decided : decideRange content.length behavior request = (200, 0, content.length - 1)) :
    (handle content behavior request).1.response = ⟨200, none, some (toString content.length), content⟩ := by
  by_cases present : content.length = 0
  · obtain rfl := List.length_eq_zero_iff.mp present
    simp only [handle, decided, if_pos present]
    rfl
  · have last : min (content.length - 1) (content.length - 1) + 1 - min 0 content.length = content.length := by omega
    have order : min (content.length - 1) (content.length - 1) ≥ min 0 content.length := by omega
    have zero : min 0 content.length = 0 := Nat.zero_min _
    simp only [handle, decided, if_neg present, if_pos order, last]
    simp

/-- The answer brings the asked bytes, or it brings everything. Either way the downloader reads the right total. -/
structure Brings (content : List UInt8) (behavior : ServerBehavior) (request : Request) (first stop : Nat) : Prop where
  part : honours behavior request = true →
    (handle content behavior request).1.response.status = 206 ∧
      (handle content behavior request).1.response.body = (content.drop first).take (stop - first) ∧
      (handle content behavior request).1.response.rangeTotal = some content.length ∧
      ((handle content behavior request).1.response.contentRange.bind fun value =>
        parseContentRangeTotal value.toList) = some content.length
  whole : honours behavior request = false →
    (handle content behavior request).1.response.status = 200 ∧
      (handle content behavior request).1.response.body = content ∧
      (handle content behavior request).1.response.lengthTotal = some content.length

theorem brings {first last stop : Nat} (fits : content.length < 2 ^ 64)
    (read : (request.range.bind fun value => parseRangeSingle value.toList) = some (first, last))
    (inside : first < content.length) (order : first ≤ last) (cut : min last (content.length - 1) + 1 = stop) :
    Brings content behavior request first stop where
  part honoured := by
    have total : ∀ start stop : Nat, afterLastSlash s!"bytes {start}-{stop}/{content.length}".toList =
        (toString content.length).toList := fun start stop => afterLastSlash_written _ _
    have number : (toString content.length).toList ≠ ['*'] := by
      intro star
      have listed : '*' ∈ (toString content.length).toList := star ▸ List.mem_cons_self
      exact not_mem_toString (by decide) _ listed
    rw [handle_part read honoured inside order, cut]
    refine ⟨rfl, rfl, ?_, ?_⟩
    · rw [Response.rangeTotal, Option.bind_some, total]
      exact parseU64_toString fits
    · rw [Option.bind_some, parseContentRangeTotal, total, trim_toString, if_neg number]
      exact parseU64_toString fits
  whole refused := by
    have decided : decideRange content.length behavior request = (200, 0, content.length - 1) := by
      rw [decideRange, read]
      exact if_neg (Bool.eq_false_iff.mp refused)
    rw [handle_whole decided]
    exact ⟨rfl, rfl, parseU64_toString fits⟩

/-- What a worker asks for is what the server brings. -/
theorem worker_brings (fits : content.length < 2 ^ 64) {worker : Worker} (ifRange : Option String) {pos : Nat}
    (more : pos < worker.stop) (inside : worker.stop ≤ content.length) :
    Brings content behavior (worker.request ifRange pos) pos worker.stop :=
  brings fits (parseRangeSingle_part (by omega) (by omega)) (by omega) (by omega) (by omega)

/-- What a resumed call misses is what the server brings. -/
theorem single_brings (fits : content.length < 2 ^ 64) (ifRange : Option String) {existing : Nat}
    (more : existing < content.length) :
    Brings content behavior (Single.request ifRange existing true) existing content.length :=
  brings fits (parseRangeSingle_open (by omega)) more (by unfold maxU64; omega) (by unfold maxU64; omega)

/-- A stream sends a chunk as long as it has neither ended nor been dropped. -/
theorem next_cases (served : Served) (positive : 0 < served.chunkSize) (pos : Nat) :
    (served.next pos = .ended ∧ served.response.body.length ≤ pos) ∨
      (served.next pos = .dropped ∧ pos < served.response.body.length ∧ served.dropAfter ≤ pos) ∨
      ∃ size, 0 < size ∧ pos + size ≤ served.response.body.length ∧ pos + size ≤ served.dropAfter ∧
        served.next pos = .chunk ((served.response.body.drop pos).take size) := by
  unfold Served.next
  dsimp only
  split_ifs with ended dropped beyond empty exhausted
  · exact Or.inl ⟨rfl, ended⟩
  · exact Or.inr (Or.inl ⟨rfl, Nat.lt_of_not_le ended, dropped⟩)
  · omega
  · exact Or.inr (Or.inr ⟨served.dropAfter - pos, by omega, by omega, by omega, rfl⟩)
  · omega
  · exact Or.inr (Or.inr ⟨min served.chunkSize (served.response.body.length - pos), by omega, by omega, by omega, rfl⟩)

/-- The chunks of a stream are the start of its body, up to where the connection is dropped. -/
theorem stream_eq (served : Served) (positive : 0 < served.chunkSize) {fuel pos : Nat}
    (enough : served.response.body.length - pos < fuel) (before : pos ≤ served.dropAfter) :
    (served.stream fuel pos).1.flatten = (served.response.body.take served.dropAfter).drop pos ∧
      ((served.stream fuel pos).2 = true ↔ served.dropAfter < served.response.body.length) := by
  induction fuel generalizing pos with
  | zero => omega
  | succ fuel ih =>
      rw [Served.stream]
      obtain ⟨next, ended⟩ | ⟨next, more, dropped⟩ | ⟨size, some_, inside, kept, next⟩ := next_cases served positive pos
      · rw [next, List.drop_eq_nil_of_le (by rw [List.length_take]; omega)]
        exact ⟨rfl, iff_of_false Bool.false_ne_true (by omega)⟩
      · rw [next, List.drop_eq_nil_of_le (by rw [List.length_take]; omega)]
        exact ⟨rfl, iff_of_true rfl (by omega)⟩
      · have length : ((served.response.body.drop pos).take size).length = size := by
          rw [List.length_take, List.length_drop]
          omega
        obtain ⟨joined, cut⟩ := ih (by omega : served.response.body.length - (pos + size) < fuel) kept
        have piece : (served.response.body.drop pos).take size =
            ((served.response.body.take served.dropAfter).drop pos).take size := by
          rw [List.drop_take, List.take_take, Nat.min_eq_left (by omega)]
        rw [next]
        dsimp only
        rw [length, List.flatten_cons, joined, piece, ← List.drop_drop, List.take_append_drop]
        exact ⟨rfl, cut⟩

/-- The chunks of an answer are not empty, and its body is a part of the content. -/
theorem handle_sized (content : List UInt8) (behavior : ServerBehavior) (request : Request) :
    0 < (handle content behavior request).1.chunkSize ∧
      (handle content behavior request).1.response.body.length ≤ content.length := by
  have chunks : 0 < if behavior.chunkSize > 0 then behavior.chunkSize else 16 * 1024 := by
    split_ifs with own
    · exact own
    · decide
  unfold handle
  dsimp only
  generalize (if behavior.chunkSize > 0 then behavior.chunkSize else 16 * 1024) = chunkSize at chunks ⊢
  split_ifs
  all_goals
    refine ⟨chunks, ?_⟩
    simp only [List.length_take, List.length_drop, List.length_nil]
    omega

/-- Only an answer with a body carries the `ETag`. -/
theorem handle_etag (content : List UInt8) (behavior : ServerBehavior) (request : Request) :
    (handle content behavior request).1.etag =
      if content.length = 0 then none else behavior.etag.map HeaderText.arrived := by
  by_cases empty : content.length = 0
  · simp only [handle, if_pos empty]
  · simp only [handle, if_neg empty]

/--
The probe learns the length and whether ranges are supported. `HEAD` tells it all when they are. Otherwise the probe
also needs an answer to its `GET`.
-/
theorem probe_learns (fits : content.length < 2 ^ 64) (behavior : ServerBehavior) (base64 : Digest.Base64Standard)
    (url : String) (range : Option ProbeResponse) (told : behavior.supportRange = true ∨
      range = some ((handle content behavior probeRequest).1.probeResponse url)) :
    ∃ info, probe (some (handleHead base64 content behavior url)) range = .ok info ∧
      info.size = some content.length ∧ info.supportsRange = behavior.supportRange ∧
      info.etag = behavior.etag.map HeaderText.arrived := by
  have length : (handleHead base64 content behavior url).lengthTotal = some content.length := parseU64_toString fits
  have success : (some (handleHead base64 content behavior url)).filter (fun response => isSuccess response.status) =
      some (handleHead base64 content behavior url) := rfl
  unfold probe
  rw [success]
  cases supports : behavior.supportRange with
  | true =>
      have bytes : (handleHead base64 content behavior url).supportsRange = some true := by
        simp only [ProbeResponse.supportsRange, handleHead, supports, if_true]
        rfl
      refine ⟨_, if_pos ⟨bytes, by rw [length]; rfl⟩, length, rfl, rfl⟩
  | false =>
      obtain rfl := told.resolve_left (by simp [supports])
      have refused : (handleHead base64 content behavior url).supportsRange = some false := by
        simp only [ProbeResponse.supportsRange, handleHead, supports]
        rfl
      have decided : decideRange content.length behavior probeRequest = (200, 0, content.length - 1) := by
        unfold decideRange
        split
        · rw [if_neg (by simp [honours, supports])]
        · rfl
      have status : ((handle content behavior probeRequest).1.probeResponse url).status = 200 := by
        rw [Served.probeResponse, handle_whole decided]
      dsimp only
      rw [if_neg (by simp [refused]), rangeProbe, if_neg (by simp [status, isSuccess])]
      refine ⟨_, rfl, ?_, ?_, ?_⟩
      · simp only [rangeInfo, probeSize, status, Option.bind_some, length]
        rfl
      · simp [rangeInfo, status, refused]
      · -- The answer to `GET` has the same header, or it has none.
        simp only [rangeInfo, Option.bind_some, handleHead, Served.probeResponse, handle_etag]
        split_ifs
        · exact Option.or_none
        · exact Option.or_self

/-- Without range support the probe depends on its `GET`. -/
theorem probe_unanswered (behavior : ServerBehavior) (base64 : Digest.Base64Standard) (url : String)
    (supports : behavior.supportRange = false) :
    probe (some (handleHead base64 content behavior url)) none = .error .http := by
  have refused : (handleHead base64 content behavior url).supportsRange = some false := by
    simp only [ProbeResponse.supportsRange, handleHead, supports]
    rfl
  have success : (some (handleHead base64 content behavior url)).filter (fun response => isSuccess response.status) =
      some (handleHead base64 content behavior url) := rfl
  unfold probe
  rw [success]
  exact if_neg (by simp [refused])

/--
The downloader and the server understand each other. The probe learns the truth, unless its `GET` is needed and dropped.
The range of a worker and the rest of a file are read as they were meant, and they are brought, or else everything is.
What is sent is the start of it.
-/
theorem exchanged (fits : content.length < 2 ^ 64) (behavior : ServerBehavior) :
    (∀ base64 url range, behavior.supportRange = true ∨
        range = some ((handle content behavior probeRequest).1.probeResponse url) →
      ∃ info, probe (some (handleHead base64 content behavior url)) range = .ok info ∧
        info.size = some content.length ∧ info.supportsRange = behavior.supportRange ∧
        info.etag = behavior.etag.map HeaderText.arrived) ∧
    (∀ base64 url, behavior.supportRange = false →
      probe (some (handleHead base64 content behavior url)) none = .error .http) ∧
    (∀ (worker : Worker) ifRange pos, pos < worker.stop → worker.stop ≤ content.length →
      Brings content behavior (worker.request ifRange pos) pos worker.stop) ∧
    (∀ ifRange existing, existing < content.length →
      Brings content behavior (Single.request ifRange existing true) existing content.length) ∧
    (∀ ifRange existing, (handle content behavior (Single.request ifRange existing false)).1.response =
      ⟨200, none, some (toString content.length), content⟩) ∧
    ∀ request, ((handle content behavior request).1.stream (content.length + 1) 0).1.flatten =
        (handle content behavior request).1.response.body.take (handle content behavior request).1.dropAfter ∧
      (((handle content behavior request).1.stream (content.length + 1) 0).2 = true ↔
        (handle content behavior request).1.dropAfter < (handle content behavior request).1.response.body.length) := by
  refine ⟨probe_learns fits behavior, probe_unanswered behavior, ?_, ?_, ?_, ?_⟩
  · exact fun worker ifRange pos more inside => worker_brings fits ifRange more inside
  · exact fun ifRange existing more => single_brings fits ifRange more
  · exact fun ifRange existing => handle_whole rfl
  · intro request
    obtain ⟨positive, short⟩ := handle_sized content behavior request
    exact stream_eq _ positive (by omega) (Nat.zero_le _)

/-- This server drops its first response, and it sends chunks of two bytes. -/
def flaky : ServerBehavior := { supportRange := true, dropFirstNResponses := 1, chunkSize := 2 }

theorem exchanged_flaky :
    Brings [1, 2, 3, 4, 5, 6] flaky ((Worker.spawn ⟨1, 1, 6⟩).request none 1) 1 6 ∧
      ((handle [1, 2, 3, 4, 5, 6] flaky ((Worker.spawn ⟨1, 1, 6⟩).request none 1)).1.stream 7 0).1.flatten =
        ([2, 3, 4, 5, 6] : List UInt8).take 2 := by
  obtain ⟨-, -, parts, -, -, streams⟩ := exchanged (by decide : [1, 2, 3, 4, 5, (6 : UInt8)].length < 2 ^ 64) flaky
  have part := parts (Worker.spawn ⟨1, 1, 6⟩) none 1 (by decide) (by decide)
  obtain ⟨joined, -⟩ := streams ((Worker.spawn ⟨1, 1, 6⟩).request none 1)
  obtain ⟨-, body, -⟩ := part.part rfl
  refine ⟨part, joined.trans ?_⟩
  rw [body]
  decide +kernel

end TestServer

end FastDownloader
