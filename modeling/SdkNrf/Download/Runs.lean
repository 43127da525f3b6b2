import SdkNrf.Download.DeliverySteps

/-!
# Whole downloads

Every clean run delivers the file from the start offset exactly once, over plain HTTP and over HTTPS.
-/

namespace SdkNrf.Download

open CString

/-- What has been delivered is the beginning of what the download is about. The end of the download
is said once, when everything has been delivered, and not later than when everything has been
received. -/
structure DeliveredOnce (srv : Server) (start : Nat) (s : System) : Prop where
  content : (fragments s.events).flatten <+: srv.file.drop start
  done_iff : .done ∈ s.events ↔ (fragments s.events).flatten = srv.file.drop start
  doneLast : .done ∈ s.events → ∃ es, s.events = es ++ [.done] ∧ .done ∉ es
  running : .done ∉ s.events → s.status = .running
  received : s.stream = [] → .done ∈ s.events

section Runs

variable {cfg : Config} {dl : Resource} {srv : Server} {start : Nat} {lossless : Bool}
  {client : Client} {s : System}

theorem Delivering.fit (h : Delivering cfg dl srv start lossless s) :
    ∀ f ∈ fragments s.events, f.length ≤ cfg.bufSize := by
  rcases h with ⟨upTo, hdelivered, -⟩ | hfinished
  · exact hdelivered.fit
  · exact hfinished.fit

theorem Delivering.requests (h : Delivering cfg dl srv start lossless s) :
    GoodRequests cfg dl srv start lossless s := by
  rcases h with ⟨upTo, hdelivered, -⟩ | hfinished
  · exact hdelivered.requests
  · exact hfinished.requests

theorem Delivering.noError (h : Delivering cfg dl srv start true s) :
    ∀ code, .error code ∉ s.events := by
  rcases h with ⟨upTo, hdelivered, -⟩ | hfinished
  · exact hdelivered.noError rfl
  · exact hfinished.noError rfl

theorem Delivering.deliveredOnce (h : Delivering cfg dl srv start lossless s) :
    DeliveredOnce srv start s := by
  rcases h with hawaiting | hfinished
  · have hstream := hawaiting.stream_ne_nil
    obtain ⟨upTo, hdelivered, -⟩ := hawaiting
    have hlt := hdelivered.upTo_lt
    have hle := hdelivered.start_le
    have hpart : (fragments s.events).flatten ≠ srv.file.drop start := by
      intro heq
      have hlength := congrArg List.length heq
      rw [hdelivered.content, length_segment hlt.le, List.length_drop] at hlength
      omega
    refine ⟨?_, ?_, ?_, fun _ => hdelivered.running, fun h => absurd h hstream⟩
    · rw [hdelivered.content, segment]
      exact List.take_prefix ..
    · simp [hdelivered.notDone, hpart]
    · exact fun h => absurd h hdelivered.notDone
  · obtain ⟨es, hevents, hes⟩ := hfinished.done
    have hdone : .done ∈ s.events := by simp [hevents]
    exact ⟨hfinished.content ▸ List.prefix_rfl, ⟨fun _ => hfinished.content, fun _ => hdone⟩,
      fun _ => ⟨es, hevents, hes⟩, fun h => absurd hdone h, fun _ => hdone⟩

theorem onData_sent (hproto : dl.proto = .tcp) {t : Turn} {n : Nat} (hrecv : t.recv = .data n) :
    (onData cfg dl srv t s n).sent = s.sent := by
  have hagain (s' : System) : (sendAgain cfg dl srv t s').sent = s'.sent := by
    rw [sendAgain, if_neg (by simp [hproto, hrecv])]
  rw [onData]
  cases httpParse cfg dl { s.client with buf := received s n } (s.stream.take n).length with
  | more client => rfl
  | error => rfl
  | overrun => rfl
  | whole client =>
    rw [afterParse, callback, afterFragment]
    split
    · split
      · rfl
      · split <;> rw [hagain] <;> rfl
    · rfl

theorem turn_sent (hproto : dl.proto = .tcp) {t : Turn} {n : Nat} (hrecv : t.recv = .data n) :
    (turn cfg dl srv s t).sent = s.sent := by
  rw [turn, hrecv]
  split
  · rfl
  · split
    · rfl
    · exact onData_sent hproto hrecv

theorem sent_of_reached (hproto : dl.proto = .tcp)
    (hs : Reached (turn cfg dl srv) (Clean cfg dl srv true)
      (downloadClientStart cfg dl srv client start) s) :
    s.sent = (downloadClientStart cfg dl srv client start).sent := by
  induction hs with
  | start => rfl
  | next _ t hclean ih =>
    obtain ⟨-, n, hrecv⟩ := hclean.lossless rfl
    rw [turn_sent hproto hrecv, ih]

end Runs

def leastConfig : Config := ⟨256, 256, by decide, by decide⟩

def smallConfig : Config := ⟨160, 4, by decide, by decide⟩

def smallResource (proto : Proto) (fragSizeOverride : Nat) : Resource :=
  ⟨proto, bytes "example.com", bytes "digits", fragSizeOverride⟩

def smallFile : List UInt8 := bytes "0123456789"

/-- The field with the size in the response to a request for what follows `first`, over HTTPS with
`len` bytes. -/
def smallField (proto : Proto) (len first : Nat) : List UInt8 :=
  match proto with
  | .tcp => bytes "Content-Length: " ++ decimal (10 - first)
  | .tls => bytes "Content-Range: bytes " ++ decimal first ++ bytes "-" ++
      decimal (min (first + len - 1) 9) ++ bytes "/10"

def smallHeader (proto : Proto) (len first : Nat) : List UInt8 :=
  bytes "HTTP/1.1 206 Partial Content\r\n" ++ smallField proto len first ++ bytes "\r\n\r\n"

def smallServer (proto : Proto) (len : Nat) : Server :=
  ⟨smallFile, fun _ r => smallHeader proto len r.first⟩

def smallClient (cfg : Config) : Client := ⟨List.replicate cfg.bufSize 0, 0, 0, 0, false, false⟩

/-- A turn in which `n` bytes are received. -/
def receive (n : Nat) : Turn := ⟨.data n, fun _ => true, true, 0⟩

theorem length_decimal_le {n : Nat} (h : n < 10 ^ 10) : (decimal n).length ≤ 10 := by
  rw [decimal, List.length_map]
  exact (Nat.length_toDigits_le_iff (by decide) (by decide)).mpr h

theorem smallRequest_fits (proto : Proto) (fragSizeOverride : Nat) (r : Request)
    (hfirst : r.first < smallFile.length)
    (hlast : ∀ last ∈ r.last, last < r.first + smallConfig.bufSize) :
    (requestText (smallResource proto fragSizeOverride) r).length < smallConfig.bufSize := by
  have hten : smallFile.length = 10 := rfl
  have hsize : smallConfig.bufSize = 160 := rfl
  have hfirstLen := length_decimal_le (show r.first < 10 ^ 10 by omega)
  have hlastLen : ((r.last.map decimal).getD []).length ≤ 10 := by
    cases hr : r.last with
    | none => simp
    | some last =>
      have := hlast last hr
      exact length_decimal_le (by omega)
  have hlengths : (requestText (smallResource proto fragSizeOverride) r).length =
      83 + (decimal r.first).length + ((r.last.map decimal).getD []).length := by
    simp only [requestText, List.length_append]
    have h1 : (bytes "GET /").length = 5 := rfl
    have h2 : (smallResource proto fragSizeOverride).file.length = 6 := rfl
    have h3 : (bytes " HTTP/1.1\r\nHost: ").length = 17 := rfl
    have h4 : (smallResource proto fragSizeOverride).host.length = 11 := rfl
    have h5 : (bytes "\r\nRange: bytes=").length = 15 := rfl
    have h6 : (bytes "-").length = 1 := rfl
    have h7 : (bytes "\r\nConnection: keep-alive\r\n\r\n").length = 28 := rfl
    omega
  omega

def smallDigits (proto : Proto) (first : Nat) : Nat × Nat × List UInt8 :=
  match proto with
  | .tcp => (14, 1, decimal (10 - first))
  | .tls => (24, 0, bytes "10")

theorem smallHeader_fields (proto : Proto) : ∀ len ∈ [2, 4], ∀ first < 10,
    0 ∉ smallHeader proto len first ∧
    find (bytes "\r\n\r\n") (smallHeader proto len first) =
      some ((smallHeader proto len first).length - 4) ∧
    (smallHeader proto len first).length ≤ 160 ∧
    (find (bytes "http/1.1 206") ((smallHeader proto len first).map toLower)).isSome = true ∧
    find (sizeFieldKey proto).1 ((smallHeader proto len first).map toLower) = some 30 ∧
    find (sizeFieldKey proto).2 (((smallHeader proto len first).map toLower).drop 30) =
      some (smallDigits proto first).1 ∧
    ((smallHeader proto len first).map toLower).drop (30 + (smallDigits proto first).1 + 1) =
      List.replicate (smallDigits proto first).2.1 32 ++
        ((smallDigits proto first).2.2 ++ 13 :: [10, 13, 10]) ∧
    (smallDigits proto first).2.2 ≠ [] ∧
    (∀ b ∈ (smallDigits proto first).2.2, isDigit b = true) ∧
    digitsValue (smallDigits proto first).2.2 = announcedSize (smallResource proto len)
      (smallServer proto len) ⟨first, none⟩ := by
  cases proto <;> decide +kernel

theorem smallHeader_wellFormed {cfg : Config} (hcfg : 160 ≤ cfg.bufSize) (proto : Proto)
    (len first : Nat) (hlen : len ∈ [2, 4]) (h : first < 10) :
    ResponseHeader cfg proto
      (announcedSize (smallResource proto len) (smallServer proto len) ⟨first, none⟩)
      (smallHeader proto len first) := by
  obtain ⟨hnul, hend, hfits, hstatus, hkey, hmark, hdigits, hne, hisDigit, hvalue⟩ :=
    smallHeader_fields proto len hlen first h
  exact ⟨hnul, hend, hfits.trans hcfg, hstatus,
    ⟨_, _, _, _, _, hkey, hmark, hdigits, hne, hisDigit, hvalue⟩⟩

theorem smallSetup (proto : Proto) {start : Nat} (hstart : start < 10)
    (hwhole : proto = .tcp → start = 0) :
    Setup smallConfig (smallResource proto 4) (smallServer proto 4) start where
  start_lt := hstart
  size_lt := show 10 < 2 ^ 31 by decide
  accepted := show 4 ≤ 160 by decide
  requestFits := smallRequest_fits proto 4
  header _ r hr := by
    have hsize : 160 ≤ smallConfig.bufSize := le_rfl
    have hheader := smallHeader_wellFormed hsize proto 4 r.first (by decide) hr
    cases proto <;> exact hheader
  ranges _ := Or.inl rfl
  whole := hwhole

instance (cfg : Config) (dl : Resource) (srv : Server) (s : System) (n : Nat) :
    Decidable (CleanData cfg dl srv s n) :=
  decidable_of_iff (0 < n ∧ n ≤ s.stream.length ∧ s.client.offset + n ≤ cfg.bufSize ∧
      (s.client.hasHeader = false → s.client.offset + n < (currentHeader srv s).length →
        strstr (received s n) (bytes "\r\n\r\n") = none) ∧
      (dl.proto = .tcp → cfg.httpFragSize ≤ payloadAfter srv s n → n < s.stream.length →
        saysClose srv s n = false))
    ⟨fun ⟨hpos, havailable, hroom, hstale, hclose⟩ => ⟨hpos, havailable, hroom, hstale, hclose⟩,
      fun h => ⟨h.pos, h.available, h.room, h.noStaleEnd, h.noClose⟩⟩

theorem receive_clean {cfg : Config} {dl : Resource} {srv : Server} {lossless : Bool} {s : System}
    {n : Nat} (h : CleanData cfg dl srv s n) : Clean cfg dl srv lossless s (receive n) where
  accepts _ := rfl
  reconnects := rfl
  data := by
    rintro _ ⟨⟩
    exact h
  error := by simp [receive]
  timeout := by simp [receive]
  lossless _ := ⟨rfl, n, rfl⟩

def lose (recv : Recv) : Turn := ⟨recv, fun _ => true, true, 0⟩

theorem closed_clean {cfg : Config} {dl : Resource} {srv : Server} {s : System} :
    Clean cfg dl srv false s (lose .closed) := by
  constructor <;> simp [lose]

section SmallRun

variable (cfg : Config) (proto : Proto) (len start : Nat)

/-- A download of the small file, from a server that sends `len` bytes at a time over HTTPS. -/
def smallStart : System :=
  downloadClientStart cfg (smallResource proto len) (smallServer proto len) (smallClient cfg) start

def smallTurn : System → Turn → System :=
  turn cfg (smallResource proto len) (smallServer proto len)

def smallRun (turns : List Turn) : System :=
  turns.foldl (smallTurn cfg proto len) (smallStart cfg proto len start)

end SmallRun

def SmallGuarded (proto : Proto) (lossless : Bool) (start : Nat) (turns : List Turn) : Prop :=
  Reached.Guarded (smallTurn smallConfig proto 4)
    (Clean smallConfig (smallResource proto 4) (smallServer proto 4) lossless)
    (smallStart smallConfig proto 4 start) turns

theorem smallRun_reached {proto : Proto} {lossless : Bool} {start : Nat} {turns : List Turn}
    (h : SmallGuarded proto lossless start turns) :
    Reached (turn smallConfig (smallResource proto 4) (smallServer proto 4))
      (Clean smallConfig (smallResource proto 4) (smallServer proto 4) lossless)
      (downloadClientStart smallConfig (smallResource proto 4) (smallServer proto 4)
        (smallClient smallConfig) start) (smallRun smallConfig proto 4 start turns) :=
  Reached.run .start h

section Runs

variable {cfg : Config} {dl : Resource} {srv : Server} {start : Nat} {client : Client} {s : System}

/-- Over plain HTTP the file is delivered exactly once with a single request, in every clean run
without losses. -/
theorem http_deliversOnce (hproto : dl.proto = .tcp) (hsetup : Setup cfg dl srv start)
    (hbufLen : client.buf.length = cfg.bufSize)
    (hs : Reached (turn cfg dl srv) (Clean cfg dl srv true)
      (downloadClientStart cfg dl srv client start) s) :
    DeliveredOnce srv start s ∧ (∀ f ∈ fragments s.events, f.length ≤ cfg.bufSize) ∧
      (∀ code, .error code ∉ s.events) ∧
      s.sent = (downloadClientStart cfg dl srv client start).sent := by
  have hdelivering := delivering_of_reached hsetup hbufLen hs
  exact ⟨hdelivering.deliveredOnce, hdelivering.fit, hdelivering.noError,
    sent_of_reached hproto hs⟩

theorem smallDownload_http :
    (smallRun smallConfig .tcp 4 0 [receive 53, receive 9]).events =
        [.fragment smallFile, .done] ∧
      DeliveredOnce (smallServer .tcp 4) 0
        (smallRun smallConfig .tcp 4 0 [receive 53, receive 9]) := by
  have hguarded : SmallGuarded .tcp true 0 [receive 53, receive 9] := by
    refine ⟨receive_clean ?_, receive_clean ?_, trivial⟩ <;> decide
  exact ⟨by decide, (http_deliversOnce rfl (smallSetup .tcp (by decide) fun _ => rfl) rfl
    (smallRun_reached hguarded)).1⟩

/-- A download that starts behind the first four bytes: the size in the header is that of the rest
of the file, and the end of the download is not recognised. -/
theorem resumedDownload_neverDone :
    (smallServer .tcp 4).answer ⟨4, none⟩ = smallFile.drop 4 ∧
      ResponseHeader leastConfig .tcp 6 ((smallServer .tcp 4).header 0 ⟨4, none⟩) ∧
      (smallRun leastConfig .tcp 4 4 [receive 57]).stream = [] ∧
      (smallRun leastConfig .tcp 4 4 [receive 57]).status = .running ∧
      ¬ DeliveredOnce (smallServer .tcp 4) 4 (smallRun leastConfig .tcp 4 4 [receive 57]) := by
  have hstream : (smallRun leastConfig .tcp 4 4 [receive 57]).stream = [] := by decide
  have hheader : ResponseHeader leastConfig .tcp 6 (smallHeader .tcp 4 4) :=
    smallHeader_wellFormed (by decide) .tcp 4 4 (by decide) (by decide)
  refine ⟨by decide, hheader, hstream, by decide, ?_⟩
  intro h
  have hdone := h.received hstream
  revert hdone
  decide

/-- Over HTTPS the file is delivered exactly once, and requests and responses stay in step. -/
theorem https_deliversOnce (hproto : dl.proto = .tls) (hsetup : Setup cfg dl srv start)
    (hdiv : span cfg dl ∣ srv.file.length - start) (hbufLen : client.buf.length = cfg.bufSize)
    (hs : Reached (turn cfg dl srv) (Clean cfg dl srv true)
      (downloadClientStart cfg dl srv client start) s) :
    DeliveredOnce srv start s ∧ (∀ code, .error code ∉ s.events) ∧
      ∀ x ∈ s.sent, x.unread = 0 ∧ x.request.first = start + x.delivered ∧
        x.request.first < srv.file.length ∧
        ∃ last, x.request.last = some last ∧ last < srv.file.length := by
  have hdelivering := delivering_of_reached hsetup hbufLen hs
  have hrequests := hdelivering.requests
  refine ⟨hdelivering.deliveredOnce, hdelivering.noError, fun x hx => ?_⟩
  obtain ⟨last, hlast⟩ := hrequests.ranged hproto x hx
  exact ⟨hrequests.unread x hx, hrequests.first x hx, hrequests.first_lt x hx, last, hlast,
    hrequests.last_lt rfl hdiv x hx last hlast⟩

theorem smallDownload_https :
    (smallRun smallConfig .tls 4 2 [receive 65, receive 65]).events =
        [.fragment (bytes "2345"), .fragment (bytes "6789"), .done] ∧
      DeliveredOnce (smallServer .tls 4) 2
        (smallRun smallConfig .tls 4 2 [receive 65, receive 65]) := by
  have hguarded : SmallGuarded .tls true 2 [receive 65, receive 65] := by
    refine ⟨receive_clean ?_, receive_clean ?_, trivial⟩ <;> decide +kernel
  exact ⟨by decide +kernel, (https_deliversOnce rfl (smallSetup .tls (by decide) (by simp))
    (by decide) rfl (smallRun_reached hguarded)).1⟩

/-- Ranges of two bytes with fragments of four: the response to the first request is received as a
whole, and nothing else is requested. -/
theorem shortRanges_neverDone :
    (smallServer .tls 2).answer ⟨0, some 1⟩ = smallFile.take 2 ∧
      ResponseHeader leastConfig .tls 10 ((smallServer .tls 2).header 0 ⟨0, some 1⟩) ∧
      (smallRun leastConfig .tls 2 0 [receive 63]).sent = [⟨⟨0, some 1⟩, 0, 0⟩] ∧
      (smallRun leastConfig .tls 2 0 [receive 63]).stream = [] ∧
      (smallRun leastConfig .tls 2 0 [receive 63]).status = .running ∧
      ¬ DeliveredOnce (smallServer .tls 2) 0 (smallRun leastConfig .tls 2 0 [receive 63]) := by
  have hstream : (smallRun leastConfig .tls 2 0 [receive 63]).stream = [] := by decide
  have hheader : ResponseHeader leastConfig .tls 10 (smallHeader .tls 2 0) :=
    smallHeader_wellFormed (by decide) .tls 2 0 (by decide) (by decide)
  refine ⟨by decide, hheader, by decide, hstream, by decide, ?_⟩
  intro h
  have hdone := h.received hstream
  revert hdone
  decide

/-- When the connection is lost, what has been received is handed over, and a request for what
follows is all that the new connection carries. After a timeout the response is received further. -/
theorem download_resumes (hsetup : Setup cfg dl srv start)
    (hbufLen : client.buf.length = cfg.bufSize)
    (hs : Reached (turn cfg dl srv) (Clean cfg dl srv false)
      (downloadClientStart cfg dl srv client start) s) :
    DeliveredOnce srv start s ∧ (s.status = .running → s.stream ≠ []) ∧
      (∀ x ∈ s.sent, x.unread = 0 ∧ x.request.first = start + x.delivered) ∧
      ∀ t, Clean cfg dl srv false s t → s.status = .running →
        (t.recv = .closed ∨ t.recv = .error →
          ∃ x, (turn cfg dl srv s t).sent = s.sent ++ [x] ∧
            x.request.first = start + (fragments (turn cfg dl srv s t).events).flatten.length ∧
            (turn cfg dl srv s t).stream =
              srv.header s.sent.length x.request ++ srv.answer x.request) ∧
        (t.recv = .timeout →
          (turn cfg dl srv s t).sent = s.sent ∧ (turn cfg dl srv s t).stream = s.stream) := by
  have hdelivering := delivering_of_reached hsetup hbufLen hs
  have hrequests := hdelivering.requests
  have hawaiting (hrunning : s.status = .running) : Awaiting cfg dl srv start false s := by
    rcases hdelivering with h | hfinished
    · exact h
    · rw [hfinished.suspended] at hrunning
      contradiction
  refine ⟨hdelivering.deliveredOnce, fun hrunning => (hawaiting hrunning).stream_ne_nil,
    fun x hx => ⟨hrequests.unread x hx, hrequests.first x hx⟩,
    fun t hclean hrunning => ⟨fun hlost => ?_, fun htimeout => ?_⟩⟩
  · have hnodata (n : Nat) : t.recv ≠ .data n := by
      rcases hlost with h | h <;> simp [h]
    rw [(hawaiting hrunning).turn_loss hsetup hnodata]
    obtain ⟨upTo, hrequested⟩ := onLoss_requested hsetup (hawaiting hrunning) hclean hlost
    obtain ⟨x, hsent, hstream⟩ := hrequested.sent
    obtain ⟨y, hlast, hfirst⟩ := hrequested.awaits.lastSent
    rw [hsent, List.getLast?_concat, Option.some.injEq] at hlast
    refine ⟨x, hsent, ?_, hstream⟩
    rw [hlast, hfirst, hrequested.delivered.length_content]
  · rw [(hawaiting hrunning).turn_loss hsetup (by simp [htimeout])]
    exact (onLoss_timeout (hawaiting hrunning) hclean htimeout).2

theorem smallDownload_resumes :
    (smallRun smallConfig .tcp 4 0 [receive 53, lose .closed, receive 60]).events =
        [.fragment (bytes "0"), .error .ECONNRESET, .fragment (bytes "123456789"), .done] ∧
      DeliveredOnce (smallServer .tcp 4) 0
        (smallRun smallConfig .tcp 4 0 [receive 53, lose .closed, receive 60]) := by
  have hguarded : SmallGuarded .tcp false 0 [receive 53, lose .closed, receive 60] := by
    refine ⟨receive_clean ?_, closed_clean, receive_clean ?_, trivial⟩ <;> decide
  exact ⟨by decide, (download_resumes (smallSetup .tcp (by decide) fun _ => rfl) rfl
    (smallRun_reached hguarded)).1⟩

/-- After an error of the connection over plain HTTP, the new connection is waited on without a
request. -/
theorem lostConnection_notRequested :
    (smallRun leastConfig .tcp 4 0 [lose .error]).events = [.error .ECONNRESET] ∧
      (smallRun leastConfig .tcp 4 0 [lose .error]).status = .running ∧
      (smallRun leastConfig .tcp 4 0 [lose .error]).sent = (smallRun leastConfig .tcp 4 0 []).sent ∧
      (smallRun leastConfig .tcp 4 0 [lose .error]).stream = [] := by
  decide

end Runs

end SdkNrf.Download
