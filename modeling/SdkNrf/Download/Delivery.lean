import SdkNrf.Download.Client
import SdkNrf.Download.Header

/-!
# What a download delivers

As long as the connection is only used in ways that the client handles, the fragments are the file
from the start offset up to some position, the buffer holds what follows, and the stream holds the
rest of the response.
-/

namespace SdkNrf.Download

open CString

section Setup

variable (cfg : Config) (dl : Resource) (srv : Server)

/-- Where the response to a request for `first` and what follows ends. -/
def responseEnd (first : Nat) : Nat :=
  match dl.proto with
  | .tcp => srv.file.length
  | .tls => min (first + span cfg dl) srv.file.length

def announcedSize (r : Request) : Nat :=
  match dl.proto with
  | .tcp => srv.file.length - r.first
  | .tls => srv.file.length

/-- A download that the client can carry out. The requests fit into the buffer, and the server
answers each of them with status 206 and the size. Over HTTPS the ranges are as long as the
fragments, unless the rest of the file fits into one of either; over plain HTTP the download starts
at the beginning of the file. -/
structure Setup (start : Nat) : Prop where
  start_lt : start < srv.file.length
  size_lt : srv.file.length < 2 ^ 31
  accepted : dl.fragSizeOverride ≤ cfg.bufSize
  requestFits : ∀ r : Request, r.first < srv.file.length →
    (∀ last ∈ r.last, last < r.first + cfg.bufSize) → (requestText dl r).length < cfg.bufSize
  header : ∀ n r, r.first < srv.file.length →
    ResponseHeader cfg dl.proto (announcedSize dl srv r) (srv.header n r)
  ranges : dl.proto = .tls → span cfg dl = cfg.httpFragSize ∨
    srv.file.length - start ≤ span cfg dl ∧ srv.file.length - start ≤ cfg.httpFragSize
  whole : dl.proto = .tcp → start = 0

def currentHeader (s : System) : List UInt8 :=
  match s.sent.getLast? with
  | some sent => srv.header (s.sent.length - 1) sent.request
  | none => []

/-- How much payload is in the buffer after the next `n` bytes have been received. -/
def payloadAfter (s : System) (n : Nat) : Nat :=
  s.client.offset + n - if s.client.hasHeader then 0 else (currentHeader srv s).length

def saysClose (s : System) (n : Nat) : Bool :=
  s.client.connectionClose || (!s.client.hasHeader &&
    (strstr (lowerHeader (received s n) (currentHeader srv s).length)
      (bytes "connection: close")).isSome)

/-- A reception of `n` bytes that the client handles: a part of a header does not make up an empty
line with what is left in the buffer, and over plain HTTP the text that was searched with a header
does not say that the connection is closed, unless the first fragment is the last one. -/
structure CleanData (s : System) (n : Nat) : Prop where
  pos : 0 < n
  available : n ≤ s.stream.length
  room : s.client.offset + n ≤ cfg.bufSize
  noStaleEnd : s.client.hasHeader = false → s.client.offset + n < (currentHeader srv s).length →
    strstr (received s n) (bytes "\r\n\r\n") = none
  noClose : dl.proto = .tcp → cfg.httpFragSize ≤ payloadAfter srv s n → n < s.stream.length →
    saysClose srv s n = false

/-- A turn with an application that accepts every event and connections that can be opened again.
Data is received cleanly. Over plain HTTP the connection is lost only by being closed, and a
timeout does not come in the middle of a header; over HTTPS there are no timeouts. -/
structure Clean (lossless : Bool) (s : System) (t : Turn) : Prop where
  accepts : ∀ e, t.accepts e = true
  reconnects : t.reconnects = true
  data : ∀ n, t.recv = .data n → CleanData cfg dl srv s n
  error : t.recv = .error → dl.proto = .tls
  timeout : t.recv = .timeout →
    dl.proto = .tcp ∧ (s.client.offset = 0 ∨ s.client.hasHeader = true)
  lossless : lossless = true → t.failedSends = 0 ∧ ∃ n, t.recv = .data n

end Setup

section Invariant

variable (cfg : Config) (dl : Resource) (srv : Server) (start : Nat) (lossless : Bool)

/-- Every request is sent when nothing of an earlier response is waiting, and asks for what follows
the bytes that have been delivered. -/
structure GoodRequests (s : System) : Prop where
  unread : ∀ x ∈ s.sent, x.unread = 0
  first : ∀ x ∈ s.sent, x.request.first = start + x.delivered
  first_lt : ∀ x ∈ s.sent, x.request.first < srv.file.length
  ranged : dl.proto = .tls → ∀ x ∈ s.sent, ∃ last, x.request.last = some last
  last_lt : lossless = true → span cfg dl ∣ srv.file.length - start →
    ∀ x ∈ s.sent, ∀ last ∈ x.request.last, last < srv.file.length

/-- The thread is running, and the file has been delivered up to `upTo`. -/
structure Delivered (s : System) (upTo : Nat) : Prop where
  running : s.status = .running
  notDone : .done ∉ s.events
  noError : lossless = true → ∀ code, .error code ∉ s.events
  content : (fragments s.events).flatten = segment srv.file start upTo
  fit : ∀ f ∈ fragments s.events, f.length ≤ cfg.bufSize
  start_le : start ≤ upTo
  upTo_lt : upTo < srv.file.length
  aligned : lossless = true → dl.proto = .tls → span cfg dl ∣ upTo - start
  requests : GoodRequests cfg dl srv start lossless s

def SizeKnown (s : System) (upTo : Nat) : Prop :=
  s.client.fileSize = srv.file.length ∨
    s.client.fileSize = 0 ∧ (dl.proto = .tcp → upTo = 0)

structure Ready (s : System) (upTo : Nat) : Prop where
  noHeader : s.client.hasHeader = false
  offset : s.client.offset = 0
  bufLen : s.client.buf.length = cfg.bufSize
  progress : s.client.progress = upTo
  sizeKnown : SizeKnown dl srv s upTo
  stream : s.stream = []

structure AwaitsHeader (s : System) (upTo : Nat) : Prop where
  noHeader : s.client.hasHeader = false
  bufLen : s.client.buf.length = cfg.bufSize
  progress : s.client.progress = upTo
  sizeKnown : SizeKnown dl srv s upTo
  lastSent : ∃ x, s.sent.getLast? = some x ∧ x.request.first = upTo
  offset_lt : s.client.offset < (currentHeader srv s).length
  buffered : s.client.buf.take s.client.offset = (currentHeader srv s).take s.client.offset
  stream : s.stream = (currentHeader srv s).drop s.client.offset ++
    segment srv.file upTo (responseEnd cfg dl srv upTo)

structure Receives (s : System) (upTo : Nat) : Prop where
  hasHeader : s.client.hasHeader = true
  bufLen : s.client.buf.length = cfg.bufSize
  progress : s.client.progress = upTo + s.client.offset
  progress_lt : upTo + s.client.offset < responseEnd cfg dl srv upTo
  fileSize : s.client.fileSize = srv.file.length
  offset_lt : s.client.offset < cfg.httpFragSize
  buffered : s.client.buf.take s.client.offset =
    segment srv.file upTo (upTo + s.client.offset)
  stream : s.stream = segment srv.file (upTo + s.client.offset) (responseEnd cfg dl srv upTo)

structure Finished (s : System) : Prop where
  suspended : s.status = .suspended
  stream : s.stream = []
  content : (fragments s.events).flatten = srv.file.drop start
  fit : ∀ f ∈ fragments s.events, f.length ≤ cfg.bufSize
  noError : lossless = true → ∀ code, .error code ∉ s.events
  done : ∃ es, s.events = es ++ [.done] ∧ .done ∉ es
  requests : GoodRequests cfg dl srv start lossless s

def Awaiting (s : System) : Prop :=
  ∃ upTo, Delivered cfg dl srv start lossless s upTo ∧
    (AwaitsHeader cfg dl srv s upTo ∨ Receives cfg dl srv s upTo)

def Delivering (s : System) : Prop :=
  Awaiting cfg dl srv start lossless s ∨ Finished cfg dl srv start lossless s

/-- From `s` to `s'` a request has been sent for what follows, and nothing else is on the
connection than its response. -/
structure Requested (s s' : System) (upTo : Nat) : Prop where
  delivered : Delivered cfg dl srv start lossless s' upTo
  awaits : AwaitsHeader cfg dl srv s' upTo
  sent : ∃ x, s'.sent = s.sent ++ [x] ∧
    s'.stream = srv.header s.sent.length x.request ++ srv.answer x.request

end Invariant

section Delivered

variable {cfg : Config} {dl : Resource} {srv : Server} {start upTo : Nat} {lossless : Bool}
  {s s' : System}

theorem GoodRequests.frame (h : GoodRequests cfg dl srv start lossless s)
    (hsent : s'.sent = s.sent) : GoodRequests cfg dl srv start lossless s' := by
  obtain ⟨hunread, hfirst, hfirstLt, hranged, hlast⟩ := h
  exact ⟨hsent ▸ hunread, hsent ▸ hfirst, hsent ▸ hfirstLt, hsent ▸ hranged, hsent ▸ hlast⟩

theorem Delivered.frame (h : Delivered cfg dl srv start lossless s upTo)
    (hevents : s'.events = s.events) (hsent : s'.sent = s.sent) (hstatus : s'.status = s.status) :
    Delivered cfg dl srv start lossless s' upTo where
  running := hstatus.trans h.running
  notDone := hevents ▸ h.notDone
  noError := hevents ▸ h.noError
  content := hevents ▸ h.content
  fit := hevents ▸ h.fit
  start_le := h.start_le
  upTo_lt := h.upTo_lt
  aligned := h.aligned
  requests := h.requests.frame hsent

theorem Delivered.length_content (h : Delivered cfg dl srv start lossless s upTo) :
    start + (fragments s.events).flatten.length = upTo := by
  have hle := h.start_le
  rw [h.content, length_segment h.upTo_lt.le]
  omega

theorem Delivered.emit_error (h : Delivered cfg dl srv start false s upTo) (code : ErrorCode) :
    Delivered cfg dl srv start false (s.emit (.error code)) upTo where
  running := h.running
  notDone := by simpa [System.emit] using h.notDone
  noError := by simp
  content := by simpa [System.emit] using h.content
  fit := by simpa [System.emit] using h.fit
  start_le := h.start_le
  upTo_lt := h.upTo_lt
  aligned := by simp
  requests := h.requests.frame rfl

theorem Delivered.emit_fragment (h : Delivered cfg dl srv start lossless s upTo) {o : Nat}
    (hfit : o ≤ cfg.bufSize) (hlt : upTo + o < srv.file.length)
    (haligned : lossless = true → dl.proto = .tls → span cfg dl ∣ o) :
    Delivered cfg dl srv start lossless
      (s.emit (.fragment (segment srv.file upTo (upTo + o)))) (upTo + o) where
  running := h.running
  notDone := by simpa [System.emit] using h.notDone
  noError hlossless := by simpa [System.emit] using h.noError hlossless
  content := by
    simp only [System.emit, fragments_append, fragments_fragment, fragments_nil,
      List.flatten_append, h.content, List.flatten_cons, List.flatten_nil, List.append_nil]
    exact segment_append srv.file h.start_le (Nat.le_add_right ..)
  fit f hf := by
    simp only [System.emit, fragments_append, fragments_fragment, fragments_nil, List.mem_append,
      List.mem_singleton] at hf
    rcases hf with hf | rfl
    · exact h.fit f hf
    · rw [length_segment hlt.le]
      omega
  start_le := h.start_le.trans (Nat.le_add_right ..)
  upTo_lt := hlt
  aligned hlossless htls := by
    have hle := h.start_le
    rw [show upTo + o - start = (upTo - start) + o by omega]
    exact Nat.dvd_add (h.aligned hlossless htls) (haligned hlossless htls)
  requests := h.requests.frame rfl

theorem Delivered.finish (h : Delivered cfg dl srv start lossless s upTo) {o : Nat}
    (hfit : o ≤ cfg.bufSize) (hend : upTo + o = srv.file.length) (hstream : s.stream = []) :
    Finished cfg dl srv start lossless
      (((s.emit (.fragment (segment srv.file upTo (upTo + o)))).emit .done).suspend) where
  suspended := rfl
  stream := hstream
  content := by
    have hsegment : segment srv.file start upTo ++ segment srv.file upTo (upTo + o) =
        srv.file.drop start := by
      rw [segment_append srv.file h.start_le (Nat.le_add_right ..), hend, segment_length]
    simpa [System.emit, System.suspend, h.content] using hsegment
  fit f hf := by
    simp only [System.emit, System.suspend, fragments_append, fragments_fragment, fragments_done,
      fragments_nil, List.append_nil, List.mem_append, List.mem_singleton] at hf
    rcases hf with hf | rfl
    · exact h.fit f hf
    · rw [length_segment hend.le]
      omega
  noError hlossless := by
    simpa [System.emit, System.suspend] using h.noError hlossless
  done := ⟨_, rfl, by simpa [System.emit] using h.notDone⟩
  requests := h.requests.frame rfl

end Delivered

end SdkNrf.Download
