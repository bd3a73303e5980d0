/-
This file models the server of the integration tests and the headers that the downloader sends to it.
-/

import FastDownloader.Model.Digest
import FastDownloader.Model.MultiThread
import FastDownloader.Model.Probe
import FastDownloader.Model.SingleThread

namespace FastDownloader

open Foundation

/-- These headers of a request are read by the server. -/
structure Request where
  range : Option String
  ifRange : Option String

/-- `download_segment` asks for the rest of the range of its worker. -/
def Worker.request (ifRange : Option String) (worker : Worker) (pos : Nat) : Request :=
  ⟨some s!"bytes={pos}-{worker.stop - 1}", ifRange⟩

/-- `single_thread_attempt` asks for what is missing behind the file, or for everything. -/
def Single.request (ifRange : Option String) (existing : Nat) (resume : Bool) : Request :=
  if resume then ⟨some s!"bytes={existing}-", ifRange⟩ else ⟨none, none⟩

/-- `probe` asks for the first byte. -/
def probeRequest : Request := ⟨some "bytes=0-0", none⟩

namespace TestServer

def maxU64 : Nat := 2 ^ 64 - 1

/-- A blank of a header is a space or a tab. -/
def isBlank (char : Char) : Bool := char = ' ' || char = '\t'

/-- `HeaderValue::from_str` accepts this text. The server panics over any other one. -/
structure HeaderText where
  text : String
  visible : text.toList.all fun char => char = '\t' || (' ' ≤ char && char ≤ '~')

/-- A header arrives without the blanks around it. -/
def HeaderText.arrived (header : HeaderText) : String :=
  String.ofList ((header.text.toList.dropWhile isBlank).rdropWhile isBlank)

/-- The delays and the file name are left out. -/
structure ServerBehavior where
  supportRange : Bool := false
  answerRangeWith200 : Bool := false
  dropAfterBytes : Nat := 0
  dropFirstNResponses : Nat := 0
  chunkSize : Nat := 0
  etag : Option HeaderText := none
  ifRangeStale : Bool := false
  reprDigest : Option HeaderText := none

/-- The end of the range is the last byte. An open range ends at the largest number. -/
def parseRangeSingle (s : List Char) : Option (Nat × Nat) :=
  if "bytes=".toList.isPrefixOf s then
    (Filename.splitOnce '-' (s.drop 6)).bind fun (a, b) =>
      (parseU64 (Filename.trim a)).bind fun start =>
        if Filename.trim b = [] then some (start, maxU64)
        else (parseU64 (Filename.trim b)).map fun stop => (start, stop)
  else none

/-- The answer to `HEAD`. -/
def handleHead (base64 : Digest.Base64Standard) (content : List UInt8) (behavior : ServerBehavior) (url : String) :
    ProbeResponse where
  url := url
  status := 200
  contentLength := some (toString content.length)
  acceptRanges := some (if behavior.supportRange then "bytes" else "none")
  etag := behavior.etag.map HeaderText.arrived
  digest := Digest.digestFromParts base64 (behavior.reprDigest.map fun header => header.arrived.toList) none none

/-- The body of the answer is sent in chunks, and the connection is dropped behind so many bytes. -/
structure Served where
  response : Response
  acceptRanges : Option String := none
  etag : Option String := none
  dropAfter : Nat
  chunkSize : Nat

/-- A range is honoured when the server supports it and nothing speaks against it. -/
def honours (behavior : ServerBehavior) (request : Request) : Bool :=
  behavior.supportRange && !behavior.answerRangeWith200 && !(behavior.ifRangeStale && request.ifRange.isSome)

/-- These are the status and the first and the last position of the answer. -/
def decideRange (total : Nat) (behavior : ServerBehavior) (request : Request) : Nat × Nat × Nat :=
  match request.range.bind fun value => parseRangeSingle value.toList with
  | some (start, stop) => if honours behavior request then (206, start, stop) else (200, 0, total - 1)
  | none => (200, 0, total - 1)

/--
The answer to `GET`. A response that is dropped sends the half of its body, but no more than 256 bytes.
For a content without bytes the server answers before it adds most of its headers.
-/
def handle (content : List UInt8) (behavior : ServerBehavior) (request : Request) : Served × ServerBehavior :=
  let total := content.length
  let (status, start, stop) := decideRange total behavior request
  let bodyStart := min start total
  let bodyEnd := min stop (total - 1)
  let chunkSize := if behavior.chunkSize > 0 then behavior.chunkSize else 16 * 1024
  if total = 0 then
    ({ response := ⟨200, none, some "0", []⟩, dropAfter := maxU64, chunkSize := chunkSize }, behavior)
  else
    let body := if bodyEnd ≥ bodyStart then (content.drop bodyStart).take (bodyEnd + 1 - bodyStart) else []
    let dropAfter :=
      if behavior.dropFirstNResponses > 0 then max 1 (min 256 (body.length / 2))
      else if behavior.dropAfterBytes > 0 then behavior.dropAfterBytes
      else maxU64
    let contentRange := if status = 206 then some s!"bytes {bodyStart}-{bodyEnd}/{total}" else none
    let acceptRanges := if behavior.supportRange then some "bytes" else none
    (⟨⟨status, contentRange, some (toString body.length), body⟩, acceptRanges, behavior.etag.map HeaderText.arrived,
      dropAfter, chunkSize⟩, { behavior with dropFirstNResponses := behavior.dropFirstNResponses - 1 })

/-- The answer to the `GET` of a probe. -/
def Served.probeResponse (served : Served) (url : String) : ProbeResponse where
  url := url
  status := served.response.status
  contentLength := served.response.contentLength
  contentRange := served.response.contentRange
  acceptRanges := served.acceptRanges
  etag := served.etag

/-- The next step of the stream sends a chunk, ends the stream or drops the connection. -/
inductive Next where
  | chunk (bytes : List UInt8)
  | ended
  | dropped

/-- As many bytes are sent as the position says. -/
def Served.next (served : Served) (pos : Nat) : Next :=
  let body := served.response.body
  if pos ≥ body.length then .ended
  else if pos ≥ served.dropAfter then .dropped
  else
    let take := min served.chunkSize (body.length - pos)
    let allowed := if pos + take > served.dropAfter then served.dropAfter - pos else take
    if allowed = 0 then .ended else .chunk ((body.drop pos).take allowed)

/-- The chunks of the stream from this position on, and whether the connection is dropped behind them. -/
def Served.stream (served : Served) : Nat → Nat → List (List UInt8) × Bool
  | 0, _ => ([], false)
  | fuel + 1, pos =>
      match served.next pos with
      | .chunk bytes =>
          let (chunks, dropped) := served.stream fuel (pos + bytes.length)
          (bytes :: chunks, dropped)
      | .ended => ([], false)
      | .dropped => ([], true)

/-- So many bytes are left to send on a connection before it ends or is dropped. -/
structure Conn where
  left : Nat
  dropped : Bool

def Served.conn (served : Served) : Conn where
  left := min served.dropAfter served.response.body.length
  dropped := served.dropAfter < served.response.body.length

/-- A connection that is dropped may be gone before the head of its response has arrived: the request has failed. -/
def Served.arrive (served : Served) (arrives : Bool) : Option (Option Response × Conn) :=
  if arrives then some (some served.response, served.conn)
  else if served.conn.dropped then some (none, ⟨0, false⟩) else none

/-- This is a call of `multi_thread` with the server. Each worker has a connection. -/
structure Hosted (Text : Type) where
  disk : Disk Text
  multi : Multi
  behavior : ServerBehavior
  conns : List Conn

/-- The server answers a worker, whose request fails when nothing arrives, or the call takes another step. -/
inductive HostedAct where
  | serve (index : Nat) (arrives : Bool)
  | act (act : Act)

/-- What was sent arrives in any pieces, or it is lost with a connection that the server drops. -/
def Conn.carry (conn : Conn) : WorkerEvent → Option Conn
  | .reply _ => none
  | .chunk size => if 0 < size ∧ size ≤ conn.left then some { conn with left := conn.left - size } else none
  | .streamError => if conn.dropped then some ⟨0, false⟩ else none
  | _ => some conn

def transmit (conns : List Conn) : Act → Option (List Conn)
  | .worker index event => conns[index]?.bind fun conn => (conn.carry event).map (conns.set index)
  | _ => some conns

/-- No connection is open when the call has chosen its ranges. -/
def Hosted.begin {Text : Type} (disk : Disk Text) (behavior : ServerBehavior) (job : Job) (ranges : List WorkerRange) :
    Hosted Text where
  disk := disk
  multi := (Multi.start job).begin ranges
  behavior := behavior
  conns := ranges.map fun _ => ⟨0, false⟩

variable {Text : Type} [SerdeJson Text]

def Hosted.step (content : List UInt8) (job : Job) : Step (Hosted Text) HostedAct := fun hosted label =>
  match label with
  | .serve index arrives =>
      hosted.multi.workers[index]?.bind fun worker => worker.requested.bind fun pos =>
        let (served, behavior) := handle content hosted.behavior (worker.request job.info.ifRangeValidator pos)
        (served.arrive arrives).bind fun (reply, conn) =>
          (Multi.step .through job (hosted.disk, hosted.multi) (.worker index (.reply reply))).map fun next =>
            ⟨next.1, next.2, behavior, hosted.conns.set index conn⟩
  | .act act =>
      (transmit hosted.conns act).bind fun conns =>
        (Multi.step .through job (hosted.disk, hosted.multi) act).map fun next =>
          ⟨next.1, next.2, hosted.behavior, conns⟩

end TestServer

end FastDownloader
