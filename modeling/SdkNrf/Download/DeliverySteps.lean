import SdkNrf.Download.Delivery

/-!
# The turns of a download

What sending a request, receiving data and losing the connection do to a download.
-/

namespace SdkNrf.Download

open CString

variable {cfg : Config} {dl : Resource} {srv : Server} {start upTo : Nat} {lossless : Bool}
  {s : System} {t : Turn}

theorem Setup.span_pos (h : Setup cfg dl srv start) :
    0 < span cfg dl ∧ span cfg dl ≤ cfg.bufSize := by
  have hpos := cfg.fragSize_pos
  have hle := cfg.fragSize_le
  have haccepted := h.accepted
  rw [span]
  split <;> omega

theorem Ready.answer (hsetup : Setup cfg dl srv start) (hready : Ready cfg dl srv s upTo)
    (hlt : upTo < srv.file.length) :
    srv.answer (requestRange cfg dl s.client) =
      segment srv.file upTo (responseEnd cfg dl srv upTo) := by
  have hspan := hsetup.span_pos
  rw [requestRange, responseEnd, hready.progress]
  cases hproto : dl.proto with
  | tcp => exact (segment_length srv.file upTo).symm
  | tls =>
    have hend : min (rangeEnd cfg dl s.client + 1) srv.file.length =
        min (upTo + span cfg dl) srv.file.length := by
      rw [rangeEnd, hready.progress]
      rcases hready.sizeKnown with hsize | ⟨hsize, -⟩
      · rw [hsize, if_pos (by omega)]
        omega
      · rw [hsize, if_neg (by simp)]
        omega
    simp only [Server.answer, hend]

theorem Ready.last_lt (hready : Ready cfg dl srv s upTo) (hlt : upTo < srv.file.length)
    (hle : start ≤ upTo) (hdiv : span cfg dl ∣ srv.file.length - start)
    (haligned : dl.proto = .tls → span cfg dl ∣ upTo - start) :
    ∀ last ∈ (requestRange cfg dl s.client).last, last < srv.file.length := by
  intro last hlast
  rw [requestRange] at hlast
  cases hproto : dl.proto with
  | tcp => simp [hproto] at hlast
  | tls =>
    simp only [hproto, Option.mem_some_iff] at hlast
    have hrest : span cfg dl ∣ srv.file.length - upTo := by
      have hsub := Nat.dvd_sub hdiv (haligned hproto)
      rwa [show srv.file.length - start - (upTo - start) = srv.file.length - upTo by omega] at hsub
    have hspan := Nat.le_of_dvd (by omega) hrest
    rw [rangeEnd, hready.progress] at hlast
    split at hlast <;> omega

theorem requestRange_first (client : Client) :
    (requestRange cfg dl client).first = client.progress := by
  rw [requestRange]
  split <;> rfl

theorem Ready.requestFits (hsetup : Setup cfg dl srv start) (hready : Ready cfg dl srv s upTo)
    (hlt : upTo < srv.file.length) :
    (requestText dl (requestRange cfg dl s.client)).length < cfg.bufSize := by
  have hspan := hsetup.span_pos
  apply hsetup.requestFits
  · rwa [requestRange_first, hready.progress]
  · intro last hlast
    rw [requestRange_first, hready.progress]
    rw [requestRange] at hlast
    cases hproto : dl.proto with
    | tcp => simp [hproto] at hlast
    | tls =>
      simp only [hproto, Option.mem_some_iff] at hlast
      rw [rangeEnd, hready.progress] at hlast
      split at hlast <;> omega

variable {s' : System}

theorem GoodRequests.send (h : GoodRequests cfg dl srv start lossless s) {x : Sent}
    (hsent : s'.sent = s.sent ++ [x]) (hunread : x.unread = 0)
    (hfirst : x.request.first = start + x.delivered) (hlt : x.request.first < srv.file.length)
    (hranged : dl.proto = .tls → ∃ last, x.request.last = some last)
    (hlast : lossless = true → span cfg dl ∣ srv.file.length - start → ∀ last ∈ x.request.last,
        last < srv.file.length) :
    GoodRequests cfg dl srv start lossless s' := by
  constructor
  · simpa [hsent, or_imp, forall_and] using ⟨h.unread, hunread⟩
  · simpa [hsent, or_imp, forall_and] using ⟨h.first, hfirst⟩
  · simpa [hsent, or_imp, forall_and] using ⟨h.first_lt, hlt⟩
  · intro hproto
    simpa [hsent, or_imp, forall_and] using ⟨h.ranged hproto, hranged hproto⟩
  · intro hlossless hdiv y hy
    rw [hsent, List.mem_append, List.mem_singleton] at hy
    rcases hy with hy | rfl
    · exact h.last_lt hlossless hdiv y hy
    · exact hlast hlossless hdiv

theorem currentHeader_of_sent {x : Sent} (hsent : s'.sent = s.sent ++ [x]) :
    currentHeader srv s' = srv.header s.sent.length x.request := by
  simp [currentHeader, hsent]

theorem requestSend_requested (hsetup : Setup cfg dl srv start)
    (hdelivered : Delivered cfg dl srv start lossless s upTo) (hready : Ready cfg dl srv s upTo) :
    Requested cfg dl srv start lossless s (requestSend cfg dl srv s) upTo := by
  have hlt := hdelivered.upTo_lt
  have hfits := hready.requestFits hsetup hlt
  set r := requestRange cfg dl s.client with hr
  have hfirst : r.first = upTo := by rw [hr, requestRange_first, hready.progress]
  set buf := Memory.write s.client.buf 0
    ((requestText dl r).take (cfg.bufSize - 1) ++ [0]) with hbuf
  have hbufLen : buf.length = cfg.bufSize := by
    rw [hbuf, Memory.write]
    simp only [List.take_zero, List.nil_append, List.length_append, List.length_take,
      List.length_drop, List.length_singleton, hready.bufLen]
    omega
  set x : Sent := ⟨r, 0, (fragments s.events).flatten.length⟩ with hx
  have hsend : requestSend cfg dl srv s = { s with
      client := { s.client with buf := buf }
      stream := srv.header s.sent.length r ++ srv.answer r
      sent := s.sent ++ [x] } := by
    rw [requestSend, httpGetRequestSend]
    simp only [← hr, if_neg (not_lt.mpr hfits.le), ← hbuf, hready.stream, List.nil_append,
      List.length_nil, hx]
  rw [hsend]
  have hgood : GoodRequests cfg dl srv start lossless { s with
      client := { s.client with buf := buf }
      stream := srv.header s.sent.length r ++ srv.answer r
      sent := s.sent ++ [x] } := by
    refine hdelivered.requests.send rfl rfl ?_ (hfirst ▸ hlt) ?_ ?_
    · rw [hx, hfirst, hdelivered.length_content]
    · intro hproto
      exact ⟨rangeEnd cfg dl s.client, by simp [hx, hr, requestRange, hproto]⟩
    · intro hlossless hdiv
      exact hready.last_lt hlt hdelivered.start_le hdiv (hdelivered.aligned hlossless)
  have hheader := hsetup.header s.sent.length r (hfirst ▸ hlt)
  refine ⟨?_, ?_, x, rfl, rfl⟩
  · exact ⟨hdelivered.running, hdelivered.notDone, hdelivered.noError, hdelivered.content,
      hdelivered.fit, hdelivered.start_le, hlt, hdelivered.aligned, hgood⟩
  · refine ⟨hready.noHeader, hbufLen, hready.progress, hready.sizeKnown,
      ⟨x, List.getLast?_concat .., hfirst⟩, ?_, ?_, ?_⟩
    · rw [currentHeader_of_sent rfl]
      have hge := hheader.length_ge
      simp only [hready.offset, hx]
      omega
    · simp only [hready.offset, List.take_zero]
    · rw [currentHeader_of_sent rfl]
      simp only [hready.offset, List.drop_zero, hx]
      rw [hr, hready.answer hsetup hlt]

variable {n : Nat}

theorem sendRequest_requested (hsetup : Setup cfg dl srv start) (haccepts : ∀ e, t.accepts e = true)
    (hreconnects : t.reconnects = true) (hn : lossless = true → n = 0)
    (hdelivered : Delivered cfg dl srv start lossless s upTo) (hready : Ready cfg dl srv s upTo) :
    Requested cfg dl srv start lossless s (sendRequest cfg dl srv t n s) upTo := by
  induction n generalizing s with
  | zero => exact requestSend_requested hsetup hdelivered hready
  | succ n ih =>
    cases lossless with
    | true => exact absurd (hn rfl) (Nat.succ_ne_zero n)
    | false =>
      rw [sendRequest, callback, if_pos (haccepts _), reconnect, if_pos hreconnects]
      obtain ⟨hdelivered', hawaits, hsent⟩ := @ih
        { s.emit (.error .ECONNRESET) with stream := [] } (by simp)
        ((hdelivered.emit_error .ECONNRESET).frame rfl rfl rfl)
        ⟨hready.noHeader, hready.offset, hready.bufLen, hready.progress, hready.sizeKnown, rfl⟩
      exact ⟨hdelivered', hawaits, hsent⟩

theorem sendAgain_requested (hsetup : Setup cfg dl srv start)
    (haccepts : ∀ e, t.accepts e = true) (hreconnects : t.reconnects = true)
    (hsends : lossless = true → t.failedSends = 0) (hsent : dl.proto = .tls ∨ t.recv = .closed)
    (hdelivered : Delivered cfg dl srv start lossless s upTo)
    (hbufLen : s.client.buf.length = cfg.bufSize) (hprogress : s.client.progress = upTo)
    (hsize : SizeKnown dl srv s upTo) (hstream : s.stream = []) :
    Requested cfg dl srv start lossless s (sendAgain cfg dl srv t s) upTo := by
  have hagain : dl.proto ≠ .tcp ∨ t.recv = .closed := hsent.imp_left fun h => by simp [h]
  rw [sendAgain, if_pos hagain]
  have hdelivered' : Delivered cfg dl srv start lossless
      { s with client := { s.client with offset := 0, hasHeader := false } } upTo :=
    hdelivered.frame rfl rfl rfl
  obtain ⟨hafter, hawaits, hrequest⟩ := sendRequest_requested hsetup haccepts hreconnects hsends
    hdelivered' ⟨rfl, rfl, hbufLen, hprogress, hsize, hstream⟩
  exact ⟨hafter, hawaits, hrequest⟩

/-- Payload is in the buffer; the last `len` bytes of it are not in the progress yet. -/
structure Settling (cfg : Config) (dl : Resource) (srv : Server) (client : Client)
    (upTo len : Nat) : Prop where
  hasHeader : client.hasHeader = true
  bufLen : client.buf.length = cfg.bufSize
  fileSize : client.fileSize = srv.file.length
  progress : client.progress + min client.offset len = upTo + client.offset
  offset_le : upTo + client.offset ≤ responseEnd cfg dl srv upTo
  room : client.offset ≤ cfg.bufSize
  buffered : client.buf.take client.offset = segment srv.file upTo (upTo + client.offset)
  keepsOpen : dl.proto = .tcp → cfg.httpFragSize ≤ client.offset →
    upTo + client.offset < srv.file.length → client.connectionClose = false

theorem responseEnd_le : responseEnd cfg dl srv upTo ≤ srv.file.length := by
  rw [responseEnd]
  split
  · exact le_rfl
  · exact Nat.min_le_right ..

theorem le_responseEnd (h : upTo ≤ srv.file.length) : upTo ≤ responseEnd cfg dl srv upTo := by
  rw [responseEnd]
  split
  · exact h
  · exact Nat.le_min.mpr ⟨Nat.le_add_right .., h⟩

theorem Setup.lt_responseEnd (hsetup : Setup cfg dl srv start) {o : Nat} (hstart : start ≤ upTo)
    (ho : o < cfg.httpFragSize) (hle : upTo + o ≤ responseEnd cfg dl srv upTo)
    (hne : upTo + o ≠ srv.file.length) : upTo + o < responseEnd cfg dl srv upTo := by
  rw [responseEnd] at hle ⊢
  cases hproto : dl.proto with
  | tcp =>
    simp only [hproto] at hle ⊢
    omega
  | tls =>
    simp only [hproto] at hle ⊢
    rcases hsetup.ranges hproto with hspan | ⟨hspan, -⟩ <;> omega

theorem Setup.eq_span (hsetup : Setup cfg dl srv start) (hproto : dl.proto = .tls) {o : Nat}
    (hstart : start ≤ upTo) (ho : cfg.httpFragSize ≤ o)
    (hle : upTo + o ≤ responseEnd cfg dl srv upTo) (hlt : upTo + o < srv.file.length) :
    o = span cfg dl ∧ responseEnd cfg dl srv upTo = upTo + o := by
  simp only [responseEnd, hproto] at hle ⊢
  rcases hsetup.ranges hproto with hspan | ⟨-, hspan⟩ <;> omega

/-- After a fragment in the middle of the file, plain HTTP goes on receiving, and HTTPS requests the
next one. -/
theorem Delivered.afterFragment (hsetup : Setup cfg dl srv start)
    (hdelivered : Delivered cfg dl srv start lossless s upTo) (hrecv : t.recv = .data n)
    (haccepts : ∀ e, t.accepts e = true) (hreconnects : t.reconnects = true)
    (hsends : lossless = true → t.failedSends = 0) (hheader : s.client.hasHeader = true)
    (hbufLen : s.client.buf.length = cfg.bufSize) (hsize : s.client.fileSize = srv.file.length)
    (hprogress : s.client.progress = upTo)
    (htcp : dl.proto = .tcp → s.client.connectionClose = false ∧
        s.stream = segment srv.file upTo srv.file.length)
    (htls : dl.proto = .tls → s.stream = []) :
    Awaiting cfg dl srv start lossless (afterFragment cfg dl srv t s) := by
  have hlt := hdelivered.upTo_lt
  rw [Download.afterFragment, if_neg (by omega)]
  cases hproto : dl.proto with
  | tcp =>
    obtain ⟨hopen, hstream⟩ := htcp hproto
    rw [if_neg (by simp [hopen]), sendAgain, if_neg (by simp [hproto, hrecv])]
    refine ⟨upTo, hdelivered.frame rfl rfl rfl, Or.inr ?_⟩
    have hend : responseEnd cfg dl srv upTo = srv.file.length := by simp [responseEnd, hproto]
    constructor <;> simp [hprogress, hend, hheader, hbufLen, hsize, hlt, cfg.fragSize_pos, hstream]
  | tls =>
    have hnil := htls hproto
    split
    · have hreopened : Delivered cfg dl srv start lossless { s with
          stream := [], client := { s.client with connectionClose := false } } upTo :=
        hdelivered.frame rfl rfl rfl
      have hrequested := sendAgain_requested hsetup haccepts hreconnects hsends (Or.inl hproto)
        hreopened hbufLen hprogress (Or.inl hsize) rfl
      exact ⟨upTo, hrequested.delivered, Or.inl hrequested.awaits⟩
    · have hrequested := sendAgain_requested hsetup haccepts hreconnects hsends (Or.inl hproto)
        hdelivered hbufLen hprogress (Or.inl hsize) hnil
      exact ⟨upTo, hrequested.delivered, Or.inl hrequested.awaits⟩

theorem Delivered.settle (hsetup : Setup cfg dl srv start)
    (hdelivered : Delivered cfg dl srv start lossless s upTo) (hrecv : t.recv = .data n)
    (haccepts : ∀ e, t.accepts e = true) (hreconnects : t.reconnects = true)
    (hsends : lossless = true → t.failedSends = 0) {client : Client} {len : Nat}
    (hclient : Settling cfg dl srv client upTo len)
    (hstream : s.stream = segment srv.file (upTo + client.offset) (responseEnd cfg dl srv upTo)) :
    Delivering cfg dl srv start lossless
      (afterParse cfg dl srv t s (accumulate cfg client len)) := by
  have hstart := hdelivered.start_le
  have hend := hclient.offset_le.trans responseEnd_le
  set settled : Client := { client with progress := upTo + client.offset } with hsettled
  have hparsed : accumulate cfg client len =
      if client.offset < cfg.httpFragSize ∧ upTo + client.offset ≠ srv.file.length
        then .more settled else .whole settled := by
    simp only [accumulate, hclient.progress, hsettled, hclient.fileSize]
  have hframe : Delivered cfg dl srv start lossless { s with client := settled } upTo :=
    hdelivered.frame rfl rfl rfl
  rw [hparsed]
  split
  next hmore =>
    exact Or.inl ⟨upTo, hframe, Or.inr ⟨hclient.hasHeader, hclient.bufLen, rfl,
      hsetup.lt_responseEnd hstart hmore.1 hclient.offset_le hmore.2, hclient.fileSize, hmore.1,
      hclient.buffered, hstream⟩⟩
  next hwhole =>
    have hfragment : fragment settled =
        .fragment (segment srv.file upTo (upTo + client.offset)) := by
      rw [fragment, hsettled, hclient.buffered]
    rw [afterParse, callback, if_pos (haccepts _), hfragment]
    by_cases hlast : upTo + client.offset = srv.file.length
    · have hstop : settled.progress = settled.fileSize := hlast.trans hclient.fileSize.symm
      have hnil : s.stream = [] := by
        rw [hstream, hlast, segment, Nat.sub_eq_zero_of_le responseEnd_le, List.take_zero]
      rw [Download.afterFragment, System.emit_client, if_pos hstop]
      exact Or.inr (hframe.finish hclient.room hlast hnil)
    · have hlt : upTo + client.offset < srv.file.length := by omega
      have hfrag : cfg.httpFragSize ≤ client.offset := by omega
      have hspan (hproto : dl.proto = .tls) :=
        hsetup.eq_span hproto hstart hfrag hclient.offset_le hlt
      have hnext := hframe.emit_fragment hclient.room hlt
        fun _ hproto => (hspan hproto).1 ▸ dvd_rfl
      refine Or.inl (hnext.afterFragment hsetup hrecv haccepts hreconnects hsends
        hclient.hasHeader hclient.bufLen hclient.fileSize rfl ?_ ?_)
      · intro hproto
        refine ⟨hclient.keepsOpen hproto hfrag hlt, ?_⟩
        simpa [responseEnd, hproto] using hstream
      · intro hproto
        simpa [(hspan hproto).2] using hstream

theorem take_write {buf data : List UInt8} {o : Nat} (ho : o ≤ buf.length) :
    (Memory.write buf o data).take (o + data.length) = buf.take o ++ data := by
  rw [Memory.write, List.take_left' (by simp [ho])]

theorem length_write {buf data : List UInt8} {o : Nat} (h : o + data.length ≤ buf.length) :
    (Memory.write buf o data).length = buf.length := by
  simp only [Memory.write, List.length_append, List.length_take, List.length_drop]
  omega

theorem length_received (hbufLen : s.client.buf.length = cfg.bufSize)
    (havailable : n ≤ s.stream.length) (hroom : s.client.offset + n ≤ cfg.bufSize) :
    (received s n).length = cfg.bufSize := by
  have hdata : (s.stream.take n).length = n := List.length_take_of_le havailable
  rw [received, length_write (by omega), hbufLen]

theorem take_received (hbufLen : s.client.buf.length = cfg.bufSize)
    (havailable : n ≤ s.stream.length) (hroom : s.client.offset + n ≤ cfg.bufSize) :
    (received s n).take (s.client.offset + n) =
      s.client.buf.take s.client.offset ++ s.stream.take n := by
  have hdata : (s.stream.take n).length = n := List.length_take_of_le havailable
  have ho : s.client.offset ≤ s.client.buf.length := by omega
  have htake : _ = s.client.buf.take s.client.offset ++ s.stream.take n := take_write ho
  rwa [hdata] at htake

theorem Delivered.onData_payload (hsetup : Setup cfg dl srv start)
    (hdelivered : Delivered cfg dl srv start lossless s upTo)
    (hreceives : Receives cfg dl srv s upTo) (hclean : Clean cfg dl srv lossless s t)
    (hrecv : t.recv = .data n) :
    Delivering cfg dl srv start lossless (onData cfg dl srv t s n) := by
  obtain ⟨hpos, havailable, hroom, -, hclose⟩ := hclean.data n hrecv
  have hlength := congrArg List.length hreceives.stream
  rw [length_segment responseEnd_le] at hlength
  have hlt := hreceives.progress_lt
  have hframe : Delivered cfg dl srv start lossless { s with stream := s.stream.drop n } upTo :=
    hdelivered.frame rfl rfl rfl
  have hparse : httpParse cfg dl { s.client with buf := received s n } n = accumulate cfg
      { s.client with buf := received s n, offset := s.client.offset + n } n :=
    httpParse_payload n hreceives.hasHeader
  rw [onData, List.length_take_of_le havailable, hparse]
  refine hframe.settle hsetup hrecv hclean.accepts hclean.reconnects
    (fun h => (hclean.lossless h).1) ⟨hreceives.hasHeader, ?_, hreceives.fileSize, ?_, ?_, hroom,
      ?_, ?_⟩ ?_
  · exact length_received hreceives.bufLen havailable hroom
  · simp only [hreceives.progress]
    omega
  · simp only
    omega
  · simp only [take_received hreceives.bufLen havailable hroom, hreceives.buffered]
    rw [hreceives.stream, take_segment srv.file (by omega),
      segment_append srv.file (by omega) (by omega), add_assoc]
  · intro hproto hfrag hmiddle
    have hsays := hclose hproto
    have hend : responseEnd cfg dl srv upTo = srv.file.length := by simp [responseEnd, hproto]
    simp only [payloadAfter, hreceives.hasHeader, saysClose, if_true] at hsays
    simpa using hsays hfrag (by simp only at hmiddle; omega)
  · simp only [hreceives.stream, drop_segment, add_assoc]

theorem AwaitsHeader.take_received (hawaits : AwaitsHeader cfg dl srv s upTo)
    (hupTo : upTo ≤ srv.file.length) (hn : (currentHeader srv s).length ≤ s.client.offset + n)
    (havailable : n ≤ s.stream.length) (hroom : s.client.offset + n ≤ cfg.bufSize) :
    (received s n).take (s.client.offset + n) = currentHeader srv s ++
      segment srv.file upTo (upTo + (s.client.offset + n - (currentHeader srv s).length)) := by
  have hlt := hawaits.offset_lt
  have hend : upTo ≤ responseEnd cfg dl srv upTo := le_responseEnd hupTo
  have hlength := congrArg List.length hawaits.stream
  rw [List.length_append, List.length_drop, length_segment responseEnd_le] at hlength
  have hpayload : (segment srv.file upTo (responseEnd cfg dl srv upTo)).take
      (n - ((currentHeader srv s).length - s.client.offset)) =
        segment srv.file upTo
          (upTo + (s.client.offset + n - (currentHeader srv s).length)) := by
    rw [take_segment]
    · congr 1
      omega
    · omega
  rw [Download.take_received hawaits.bufLen havailable hroom, hawaits.buffered, hawaits.stream,
    List.take_append, List.length_drop, hpayload, List.take_of_length_le (i := n) (by
      rw [List.length_drop]
      omega), ← List.append_assoc, List.take_append_drop]

theorem AwaitsHeader.responseHeader (hsetup : Setup cfg dl srv start)
    (hawaits : AwaitsHeader cfg dl srv s upTo) (hlt : upTo < srv.file.length) :
    ResponseHeader cfg dl.proto (announcedSize dl srv ⟨upTo, none⟩) (currentHeader srv s) := by
  obtain ⟨x, hlast, hfirst⟩ := hawaits.lastSent
  have hheader := hsetup.header (s.sent.length - 1) x.request (hfirst ▸ hlt)
  rw [currentHeader, hlast]
  simpa [announcedSize, hfirst] using hheader

theorem SizeKnown.after_header (h : SizeKnown dl srv s upTo) (hlt : upTo < srv.file.length) :
    (if s.client.fileSize = 0 then announcedSize dl srv ⟨upTo, none⟩ else s.client.fileSize) =
      srv.file.length := by
  rcases h with hsize | ⟨hsize, hzero⟩
  · rw [hsize, if_neg (by omega)]
  · rw [hsize, if_pos rfl, announcedSize]
    cases hproto : dl.proto with
    | tcp => simp [hzero hproto]
    | tls => rfl

theorem Delivered.onData_partial (hdelivered : Delivered cfg dl srv start lossless s upTo)
    (hawaits : AwaitsHeader cfg dl srv s upTo) (hclean : Clean cfg dl srv lossless s t)
    (hrecv : t.recv = .data n) (hn : s.client.offset + n < (currentHeader srv s).length) :
    Delivering cfg dl srv start lossless (onData cfg dl srv t s n) := by
  obtain ⟨hpos, havailable, hroom, hstale, -⟩ := hclean.data n hrecv
  have hparse : httpParse cfg dl { s.client with buf := received s n } n =
      .more { s.client with buf := received s n, offset := s.client.offset + n } :=
    httpParse_receiving n hawaits.noHeader (hstale hawaits.noHeader hn)
  rw [onData, List.length_take_of_le havailable, hparse]
  refine Or.inl ⟨upTo, hdelivered.frame rfl rfl rfl, Or.inl ⟨hawaits.noHeader,
    length_received hawaits.bufLen havailable hroom, hawaits.progress, hawaits.sizeKnown,
    hawaits.lastSent, hn, ?_, ?_⟩⟩
  · rw [afterParse]
    simp only
    rw [Download.take_received hawaits.bufLen havailable hroom, hawaits.buffered, hawaits.stream]
    change _ = (currentHeader srv s).take _
    rw [List.take_append_of_le_length (by rw [List.length_drop]; omega), ← List.take_add]
  · rw [afterParse]
    simp only
    change _ = (currentHeader srv s).drop _ ++ _
    rw [hawaits.stream, List.drop_append_of_le_length (by rw [List.length_drop]; omega),
      List.drop_drop]

theorem Delivered.onData_header (hsetup : Setup cfg dl srv start)
    (hdelivered : Delivered cfg dl srv start lossless s upTo)
    (hawaits : AwaitsHeader cfg dl srv s upTo) (hclean : Clean cfg dl srv lossless s t)
    (hrecv : t.recv = .data n) (hn : (currentHeader srv s).length ≤ s.client.offset + n) :
    Delivering cfg dl srv start lossless (onData cfg dl srv t s n) := by
  obtain ⟨hpos, havailable, hroom, -, hclose⟩ := hclean.data n hrecv
  have hlt := hdelivered.upTo_lt
  have hoffset := hawaits.offset_lt
  have hheader := hawaits.responseHeader hsetup hlt
  set header := currentHeader srv s with hcurrent
  set m := s.client.offset + n - header.length with hm
  set payload := segment srv.file upTo (upTo + m) with hpayload
  have hend : upTo ≤ responseEnd cfg dl srv upTo := le_responseEnd hlt.le
  have hlength := congrArg List.length hawaits.stream
  rw [List.length_append, List.length_drop, length_segment responseEnd_le, ← hcurrent] at hlength
  have hle : upTo + m ≤ responseEnd cfg dl srv upTo := by omega
  have hpayloadLen : payload.length = m := by
    rw [hpayload, length_segment (hle.trans responseEnd_le)]
    omega
  obtain ⟨rest, hbuf⟩ : ∃ rest, received s n = header ++ (payload ++ rest) := by
    refine ⟨(received s n).drop (s.client.offset + n), ?_⟩
    rw [← List.append_assoc, hcurrent, hpayload, hm, hcurrent,
      ← hawaits.take_received hlt.le hn havailable hroom, List.take_append_drop]
  have hannounced : announcedSize dl srv ⟨upTo, none⟩ < 2 ^ 32 := by
    have hsize := hsetup.size_lt
    rw [announcedSize]
    split <;> omega
  set client : Client := { s.client with buf := received s n } with hclient
  have hreceived : client.offset + n = header.length + payload.length := by
    have ho : client.offset = s.client.offset := rfl
    omega
  have hprogress : client.progress = upTo := hawaits.progress
  have hclientLen : client.buf.length = cfg.bufSize :=
    length_received hawaits.bufLen havailable hroom
  have hsize : (if client.fileSize = 0 then announcedSize dl srv ⟨upTo, none⟩
      else client.fileSize) = srv.file.length := hawaits.sizeKnown.after_header hlt
  obtain ⟨buf, hbufLen, htake, hparse⟩ :=
    httpParse_header hheader hannounced hbuf hreceived hawaits.noHeader
  rw [hpayloadLen] at hparse htake
  rw [hsize] at hparse
  have hframe : Delivered cfg dl srv start lossless { s with stream := s.stream.drop n } upTo :=
    hdelivered.frame rfl rfl rfl
  rw [onData, List.length_take_of_le havailable, hparse]
  refine hframe.settle hsetup hrecv hclean.accepts hclean.reconnects
    (fun h => (hclean.lossless h).1) ⟨rfl, ?_, rfl, ?_, hle, by simp only; omega, htake, ?_⟩ ?_
  · exact hbufLen.trans hclientLen
  · simp only [hprogress]
    omega
  · intro hproto hfrag hmiddle
    have hwhole : responseEnd cfg dl srv upTo = srv.file.length := by simp [responseEnd, hproto]
    have hsays := hclose hproto (by simpa [payloadAfter, hawaits.noHeader] using hfrag)
      (by simp only at hmiddle; omega)
    simpa [saysClose, hawaits.noHeader, seenClose, lowerHeader, ← hcurrent, hbuf] using hsays
  · simp only [hawaits.stream]
    rw [← hcurrent, List.drop_append, List.drop_of_length_le (by rw [List.length_drop]; omega),
      List.nil_append, List.length_drop, drop_segment]
    congr 1
    omega

/-- The connection is lost: what is in the buffer has been handed over, and a request has been sent
on a new connection. -/
theorem recover_requested (hsetup : Setup cfg dl srv start) (hclean : Clean cfg dl srv false s t)
    (hlost : t.recv = .closed ∨ t.recv = .error)
    (hdelivered : Delivered cfg dl srv start false s' upTo)
    (hbufLen : s'.client.buf.length = cfg.bufSize) (hprogress : s'.client.progress = upTo)
    (hsize : SizeKnown dl srv s' upTo) (hsent : s'.sent = s.sent) :
    Requested cfg dl srv start false s (recover cfg dl srv t s') upTo := by
  have htimeout : t.recv ≠ .timeout := by
    rcases hlost with h | h <;> simp [h]
  have hagain : dl.proto = .tls ∨ t.recv = .closed := by
    rcases hlost with h | h
    · exact Or.inr h
    · exact Or.inl (hclean.error h)
  rw [recover, if_neg htimeout, callback, if_pos (hclean.accepts _), reconnect,
    if_pos hclean.reconnects]
  have hreopened : Delivered cfg dl srv start false
      { s'.emit (.error .ECONNRESET) with stream := [] } upTo :=
    (hdelivered.emit_error .ECONNRESET).frame rfl rfl rfl
  obtain ⟨hafter, hawaits, x, hx, hstream⟩ := sendAgain_requested hsetup hclean.accepts
    hclean.reconnects (by simp) hagain hreopened hbufLen hprogress hsize rfl
  exact ⟨hafter, hawaits, x, by simpa [hsent] using hx, by simpa [hsent] using hstream⟩

theorem Delivered.emit_buffered (hdelivered : Delivered cfg dl srv start false s upTo)
    (hreceives : Receives cfg dl srv s upTo) :
    Delivered cfg dl srv start false (s.emit (fragment s.client)) (upTo + s.client.offset) := by
  have hlt := hreceives.progress_lt.trans_le responseEnd_le
  have hfit := hreceives.offset_lt.le.trans cfg.fragSize_le
  rw [fragment, hreceives.buffered]
  exact hdelivered.emit_fragment hfit hlt (by simp)

theorem onLoss_requested (hsetup : Setup cfg dl srv start)
    (hawaiting : Awaiting cfg dl srv start false s) (hclean : Clean cfg dl srv false s t)
    (hlost : t.recv = .closed ∨ t.recv = .error) :
    ∃ upTo, Requested cfg dl srv start false s (onLoss cfg dl srv t s) upTo := by
  obtain ⟨upTo, hdelivered, hawaits | hreceives⟩ := hawaiting
  · refine ⟨upTo, ?_⟩
    rw [onLoss, if_neg (by simp [hawaits.noHeader])]
    exact recover_requested hsetup hclean hlost hdelivered hawaits.bufLen hawaits.progress
      hawaits.sizeKnown rfl
  · refine ⟨upTo + s.client.offset, ?_⟩
    rw [onLoss]
    split
    next =>
      rw [callback, if_pos (hclean.accepts _)]
      exact recover_requested hsetup hclean hlost (hdelivered.emit_buffered hreceives)
        hreceives.bufLen hreceives.progress (Or.inl hreceives.fileSize) rfl
    next hempty =>
      have hoffset : s.client.offset = 0 := by
        simpa [hreceives.hasHeader] using hempty
      have hprogress := hreceives.progress
      rw [hoffset] at hprogress ⊢
      exact recover_requested hsetup hclean hlost hdelivered hreceives.bufLen hprogress
        (Or.inl hreceives.fileSize) rfl

theorem Receives.restart (hreceives : Receives cfg dl srv s upTo) (hproto : dl.proto = .tcp)
    (hclient : s'.client = { s.client with offset := 0 }) (hstream : s'.stream = s.stream) :
    Receives cfg dl srv s' (upTo + s.client.offset) := by
  have hend (first : Nat) : responseEnd cfg dl srv first = srv.file.length := by
    simp [responseEnd, hproto]
  have hlt := hreceives.progress_lt
  rw [hend] at hlt
  constructor <;> simp [hclient, hstream, hend, hreceives.hasHeader, hreceives.bufLen,
    hreceives.progress, hreceives.fileSize, hreceives.stream, hlt, cfg.fragSize_pos]

theorem onLoss_timeout (hawaiting : Awaiting cfg dl srv start false s)
    (hclean : Clean cfg dl srv false s t) (htimeout : t.recv = .timeout) :
    Awaiting cfg dl srv start false (onLoss cfg dl srv t s) ∧
      (onLoss cfg dl srv t s).sent = s.sent ∧ (onLoss cfg dl srv t s).stream = s.stream := by
  obtain ⟨hproto, hplace⟩ := hclean.timeout htimeout
  have hrecover (s' : System) : recover cfg dl srv t s' =
      { s' with client := { s'.client with offset := 0 } } := by
    rw [recover, if_pos htimeout, sendAgain, if_neg (by simp [hproto, htimeout])]
  obtain ⟨upTo, hdelivered, hawaits | hreceives⟩ := hawaiting
  · have hoffset : s.client.offset = 0 := by simpa [hawaits.noHeader] using hplace
    have hsame : onLoss cfg dl srv t s = s := by
      rw [onLoss, if_neg (by simp [hoffset]), hrecover, ← hoffset]
    rw [hsame]
    exact ⟨⟨upTo, hdelivered, Or.inl hawaits⟩, rfl, rfl⟩
  · rw [onLoss]
    split
    next =>
      rw [callback, if_pos (hclean.accepts _), hrecover]
      exact ⟨⟨_, (hdelivered.emit_buffered hreceives).frame rfl rfl rfl,
        Or.inr (hreceives.restart hproto rfl rfl)⟩, rfl, rfl⟩
    next hempty =>
      have hoffset : s.client.offset = 0 := by
        simpa [hreceives.hasHeader] using hempty
      have hrestart : Receives cfg dl srv { s with client := { s.client with offset := 0 } }
          (upTo + s.client.offset) := hreceives.restart hproto rfl rfl
      rw [hoffset, add_zero] at hrestart
      rw [hrecover]
      exact ⟨⟨upTo, hdelivered.frame rfl rfl rfl, Or.inr hrestart⟩, rfl, rfl⟩

theorem Awaiting.running (h : Awaiting cfg dl srv start lossless s) : s.status = .running := by
  obtain ⟨upTo, hdelivered, -⟩ := h
  exact hdelivered.running

theorem Awaiting.offset_lt (hsetup : Setup cfg dl srv start)
    (h : Awaiting cfg dl srv start lossless s) : s.client.offset < cfg.bufSize := by
  obtain ⟨upTo, hdelivered, hawaits | hreceives⟩ := h
  · exact hawaits.offset_lt.trans_le (hawaits.responseHeader hsetup hdelivered.upTo_lt).fits
  · exact hreceives.offset_lt.trans_le cfg.fragSize_le

theorem Awaiting.stream_ne_nil (h : Awaiting cfg dl srv start lossless s) : s.stream ≠ [] := by
  obtain ⟨upTo, hdelivered, hawaits | hreceives⟩ := h
  · intro hnil
    have hlt := hawaits.offset_lt
    have hlength := congrArg List.length hawaits.stream
    rw [hnil, List.length_append, List.length_drop, List.length_nil] at hlength
    omega
  · intro hnil
    have hlt := hreceives.progress_lt
    have hlength := congrArg List.length hreceives.stream
    rw [hnil, length_segment responseEnd_le, List.length_nil] at hlength
    omega

theorem Awaiting.onData (hsetup : Setup cfg dl srv start) (h : Awaiting cfg dl srv start lossless s)
    (hclean : Clean cfg dl srv lossless s t) (hrecv : t.recv = .data n) :
    Delivering cfg dl srv start lossless (onData cfg dl srv t s n) := by
  obtain ⟨upTo, hdelivered, hawaits | hreceives⟩ := h
  · rcases lt_or_ge (s.client.offset + n) (currentHeader srv s).length with hn | hn
    · exact hdelivered.onData_partial hawaits hclean hrecv hn
    · exact hdelivered.onData_header hsetup hawaits hclean hrecv hn
  · exact hdelivered.onData_payload hsetup hreceives hclean hrecv

theorem Awaiting.turn_data (hsetup : Setup cfg dl srv start)
    (h : Awaiting cfg dl srv start lossless s) (hrecv : t.recv = .data n) :
    turn cfg dl srv s t = Download.onData cfg dl srv t s n := by
  rw [turn, if_neg (by simp [h.running]), if_neg (h.offset_lt hsetup).ne, hrecv]

theorem Awaiting.turn_loss (hsetup : Setup cfg dl srv start)
    (h : Awaiting cfg dl srv start lossless s) (hrecv : ∀ n, t.recv ≠ .data n) :
    turn cfg dl srv s t = onLoss cfg dl srv t s := by
  rw [turn, if_neg (by simp [h.running]), if_neg (h.offset_lt hsetup).ne]
  split
  next n hdata => exact absurd hdata (hrecv n)
  next => rfl

theorem Awaiting.loss (hsetup : Setup cfg dl srv start)
    (h : Awaiting cfg dl srv start lossless s) (hclean : Clean cfg dl srv lossless s t)
    (hrecv : ∀ n, t.recv ≠ .data n) :
    Delivering cfg dl srv start lossless (turn cfg dl srv s t) := by
  rw [h.turn_loss hsetup hrecv]
  cases lossless with
  | true =>
    obtain ⟨-, n, hdata⟩ := hclean.lossless rfl
    exact absurd hdata (hrecv n)
  | false =>
    by_cases htimeout : t.recv = .timeout
    · exact Or.inl (onLoss_timeout h hclean htimeout).1
    · have hlost : t.recv = .closed ∨ t.recv = .error := by
        cases hkind : t.recv <;> simp_all
      obtain ⟨upTo, hrequested⟩ := onLoss_requested hsetup h hclean hlost
      exact Or.inl ⟨upTo, hrequested.delivered, Or.inl hrequested.awaits⟩

theorem Delivering.turn (hsetup : Setup cfg dl srv start)
    (h : Delivering cfg dl srv start lossless s) (hclean : Clean cfg dl srv lossless s t) :
    Delivering cfg dl srv start lossless (turn cfg dl srv s t) := by
  rcases h with hawaiting | hfinished
  · cases hrecv : t.recv with
    | data n =>
      rw [hawaiting.turn_data hsetup hrecv]
      exact hawaiting.onData hsetup hclean hrecv
    | closed => exact hawaiting.loss hsetup hclean (by simp [hrecv])
    | timeout => exact hawaiting.loss hsetup hclean (by simp [hrecv])
    | error => exact hawaiting.loss hsetup hclean (by simp [hrecv])
  · rw [Download.turn, if_pos (by simp [hfinished.suspended])]
    exact Or.inr hfinished

theorem downloadClientStart_delivering (hsetup : Setup cfg dl srv start) {client : Client}
    (hbufLen : client.buf.length = cfg.bufSize) :
    Delivering cfg dl srv start lossless (downloadClientStart cfg dl srv client start) := by
  set s : System :=
    { client := { client with fileSize := 0, progress := start, offset := 0, hasHeader := false }
      stream := [], sent := [], events := [], status := .running } with hs
  have hgood : GoodRequests cfg dl srv start lossless s := by
    constructor <;> simp [hs]
  have hdelivered : Delivered cfg dl srv start lossless s start :=
    ⟨rfl, by simp [hs], by simp [hs], by simp [hs], by simp [hs], le_rfl, hsetup.start_lt, by simp,
      hgood⟩
  have hready : Ready cfg dl srv s start :=
    ⟨rfl, rfl, hbufLen, rfl, Or.inr ⟨rfl, hsetup.whole⟩, rfl⟩
  have hrequested := requestSend_requested hsetup hdelivered hready
  exact Or.inl ⟨start, hrequested.delivered, Or.inl hrequested.awaits⟩

theorem delivering_of_reached (hsetup : Setup cfg dl srv start) {client : Client}
    (hbufLen : client.buf.length = cfg.bufSize)
    (hs : Reached (turn cfg dl srv) (Clean cfg dl srv lossless)
      (downloadClientStart cfg dl srv client start) s) :
    Delivering cfg dl srv start lossless s :=
  hs.invariant (downloadClientStart_delivering hsetup hbufLen) fun _ _ h hclean =>
    h.turn hsetup hclean

end SdkNrf.Download
