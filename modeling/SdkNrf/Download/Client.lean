import SdkNrf.Download.Http
import SdkNrf.Framework.Reachable
import SdkNrf.Framework.Segment

/-!
# The download thread

`download_thread` of `download_client.c` for HTTP and HTTPS, together with the connection and the
server at its other end.
-/

namespace SdkNrf.Download

inductive ErrorCode
  | ECONNRESET
  | EHOSTDOWN
  | EBADMSG
  | E2BIG
  deriving DecidableEq, Repr

/-- `DOWNLOAD_CLIENT_EVT_FRAGMENT`, `DOWNLOAD_CLIENT_EVT_ERROR` and `DOWNLOAD_CLIENT_EVT_DONE`. -/
inductive Event
  | fragment (buf : List UInt8)
  | error (code : ErrorCode)
  | done
  deriving DecidableEq

/-- The thread waits for data, has suspended itself, sends a request that never fits the buffer
again and again, or has copied across the memory behind the buffer. -/
inductive Status
  | running
  | suspended
  | resending
  | crashed
  deriving DecidableEq, Repr

structure Server where
  file : List UInt8
  header : Nat → Request → List UInt8

def Server.answer (srv : Server) (r : Request) : List UInt8 :=
  match r.last with
  | some last => segment srv.file r.first (min (last + 1) srv.file.length)
  | none => srv.file.drop r.first

def fragments (events : List Event) : List (List UInt8) :=
  events.filterMap fun
    | .fragment buf => some buf
    | _ => none

@[simp] theorem fragments_append (es es' : List Event) :
    fragments (es ++ es') = fragments es ++ fragments es' :=
  List.filterMap_append

@[simp] theorem fragments_nil : fragments [] = [] := rfl

@[simp] theorem fragments_fragment (buf : List UInt8) (es : List Event) :
    fragments (.fragment buf :: es) = buf :: fragments es := rfl

@[simp] theorem fragments_error (code : ErrorCode) (es : List Event) :
    fragments (.error code :: es) = fragments es := rfl

@[simp] theorem fragments_done (es : List Event) : fragments (.done :: es) = fragments es := rfl

/-- A request, with how much of earlier responses was waiting on the connection, and how much of
the file had been delivered. -/
structure Sent where
  request : Request
  unread : Nat
  delivered : Nat
  deriving DecidableEq, Repr

/-- The client and its connection: the bytes that were sent by the server and are not received yet,
and what has happened so far. -/
structure System where
  client : Client
  stream : List UInt8
  sent : List Sent
  events : List Event
  status : Status
  deriving DecidableEq

/-- What `recv` returns: the next bytes of the stream, of which there is at least one, 0, or -1 with
`ETIMEDOUT` or another error. -/
inductive Recv
  | data (n : Nat)
  | closed
  | timeout
  | error
  deriving DecidableEq, Repr

structure Turn where
  recv : Recv
  accepts : Event → Bool
  reconnects : Bool
  /-- How often `socket_send` fails before it succeeds. -/
  failedSends : Nat

section Thread

variable (cfg : Config) (dl : Resource) (srv : Server)

def System.emit (s : System) (e : Event) : System := { s with events := s.events ++ [e] }

@[simp] theorem System.emit_client (s : System) (e : Event) : (s.emit e).client = s.client := rfl

@[simp] theorem System.emit_stream (s : System) (e : Event) : (s.emit e).stream = s.stream := rfl

@[simp] theorem System.emit_sent (s : System) (e : Event) : (s.emit e).sent = s.sent := rfl

@[simp] theorem System.emit_events (s : System) (e : Event) :
    (s.emit e).events = s.events ++ [e] := rfl

@[simp] theorem System.emit_status (s : System) (e : Event) : (s.emit e).status = s.status := rfl

def System.suspend (s : System) : System := { s with status := .suspended }

/-- `request_send`, and the answer of the server. -/
def requestSend (s : System) : System :=
  match httpGetRequestSend cfg dl s.client with
  | none => { s with status := .resending }
  | some (client, r) => { s with
      client := client
      stream := s.stream ++ (srv.header s.sent.length r ++ srv.answer r)
      sent := s.sent ++ [⟨r, s.stream.length, (fragments s.events).flatten.length⟩] }

def callback (t : Turn) (s : System) (e : Event) (k : System → System) : System :=
  if t.accepts e then k (s.emit e) else (s.emit e).suspend

/-- `reconnect`. Nothing of the old connection is received any more. -/
def reconnect (t : Turn) (s : System) (k : System → System) : System :=
  if t.reconnects then k { s with stream := [] } else (s.emit (.error .EHOSTDOWN)).suspend

/-- The code at `send_again` when a request is sent; every failure is followed by a reconnect. -/
def sendRequest (t : Turn) : Nat → System → System
  | 0, s => requestSend cfg dl srv s
  | n + 1, s => callback t s (.error .ECONNRESET) fun s =>
      reconnect t s fun s => sendRequest t n s

/-- `send_again`. Plain HTTP sends a request only when the connection was closed. -/
def sendAgain (t : Turn) (s : System) : System :=
  let s := { s with client := { s.client with offset := 0 } }
  if dl.proto ≠ .tcp ∨ t.recv = .closed then
    sendRequest cfg dl srv t t.failedSends
      { s with client := { s.client with hasHeader := false } }
  else s

/-- What follows a fragment that the callback has accepted. The result of `reconnect` is ignored
here. -/
def afterFragment (t : Turn) (s : System) : System :=
  if s.client.progress = s.client.fileSize then (s.emit .done).suspend
  else if s.client.connectionClose then
    sendAgain cfg dl srv t
      { s with stream := [], client := { s.client with connectionClose := false } }
  else sendAgain cfg dl srv t s

def fragment (client : Client) : Event := .fragment (client.buf.take client.offset)

/-- What follows `http_parse`. -/
def afterParse (t : Turn) (s : System) : Parsed → System
  | .more client => { s with client := client }
  | .error => (s.emit (.error .EBADMSG)).suspend
  | .overrun => { s with status := .crashed }
  | .whole client =>
    callback t { s with client := client } (fragment client) (afterFragment cfg dl srv t)

/-- The buffer after the next `n` bytes have been received. -/
def received (s : System) (n : Nat) : List UInt8 :=
  Memory.write s.client.buf s.client.offset (s.stream.take n)

/-- A turn in which `recv` returns data. -/
def onData (t : Turn) (s : System) (n : Nat) : System :=
  afterParse cfg dl srv t { s with stream := s.stream.drop n }
    (httpParse cfg dl { s.client with buf := received s n } (s.stream.take n).length)

def recover (t : Turn) (s : System) : System :=
  if t.recv = .timeout then sendAgain cfg dl srv t s
  else callback t s (.error .ECONNRESET) fun s => reconnect t s (sendAgain cfg dl srv t)

def onLoss (t : Turn) (s : System) : System :=
  if 0 < s.client.offset ∧ s.client.hasHeader then
    callback t s (fragment s.client) (recover cfg dl srv t)
  else recover cfg dl srv t s

def turn (s : System) (t : Turn) : System :=
  if s.status ≠ .running then s
  else if s.client.offset = cfg.bufSize then (s.emit (.error .E2BIG)).suspend
  else
    match t.recv with
    | .data n => onData cfg dl srv t s n
    | _ => onLoss cfg dl srv t s

/-- `download_client_start` on an open connection on which nothing is waiting, when the request is
sent. -/
def downloadClientStart (client : Client) (start : Nat) : System :=
  requestSend cfg dl srv
    { client := { client with fileSize := 0, progress := start, offset := 0, hasHeader := false }
      stream := [], sent := [], events := [], status := .running }

end Thread

end SdkNrf.Download
