import SdkNrf.Desktop.ConfigTransport
import SdkNrf.Framework.CyclicId

/-!
# Frames and ids of the configuration channel transport

What each operation of the transport does with the frames of the host and with its transport id, which cycles
through 255 values.
-/

namespace SdkNrf.Desktop.ConfigTransport

open ConfigForward (ConfigEvent REPORT_SIZE_USER_CONFIG TRANSPORT_HEADER_SIZE EINVAL EMSGSIZE CONFIG_STATUS_PENDING
  CONFIG_STATUS_TIMEOUT frameLengthCheck dataLenCheck reportDataLen reportData configChannelReportParse
  configChannelReportFill)

def idAfter (base : UInt8) (drops : Nat) : UInt16 := dropTransactions^[drops] (base.toUInt16 <<< 8)

theorem idAfter_succ (base : UInt8) (drops : Nat) :
    idAfter base (drops + 1) = dropTransactions (idAfter base drops) :=
  Function.iterate_succ_apply' _ _ _

theorem and_add_and_not (a m : UInt16) : (a &&& m) + (a &&& ~~~m) = a := by
  have hdisjoint : (a.toBitVec &&& m.toBitVec) &&& (a.toBitVec &&& ~~~m.toBitVec) = 0#16 := by
    ext i hi
    simp
    grind
  apply UInt16.toBitVec_inj.mp
  simp only [UInt16.toBitVec_add, UInt16.toBitVec_and, UInt16.toBitVec_not]
  rw [BitVec.add_eq_or_of_and_eq_zero _ _ hdisjoint]
  ext i hi
  simp
  grind

theorem toNat_and_low (id : UInt16) : (id &&& 0xFF).toNat = id.toNat % 256 := by
  rw [UInt16.toNat_and]
  exact Nat.and_two_pow_sub_one_eq_mod id.toNat 8

theorem toNat_dropTransactions {id : UInt16} {base low : Nat} (hid : id.toNat = 256 * base + low)
    (hlow : low ≤ 255) :
    (dropTransactions id).toNat = 256 * base + if low = 255 then 1 else low + 1 := by
  have hlt := id.toNat_lt
  have hmask : (id &&& 0xFF).toNat = low := by
    rw [toNat_and_low]
    omega
  by_cases hlast : low = 255
  · have hff : id &&& 0xFF = 0xFF := by
      apply UInt16.toNat_inj.mp
      rw [hmask, hlast]
      rfl
    have hsum := congrArg UInt16.toNat (and_add_and_not id 0xFF)
    have hle := (id &&& ~~~0xFF).toNat_lt
    have hand : (id &&& ~~~0xFF).toNat ≤ id.toNat := by
      rw [UInt16.toNat_and]
      exact Nat.and_le_left
    rw [UInt16.toNat_add, hmask] at hsum
    simp only [dropTransactions, hff, hlast, UInt16.toNat_add, UInt16.toNat_one, if_true]
    omega
  · have hff : id &&& 0xFF ≠ 0xFF := by
      intro heq
      rw [heq] at hmask
      exact hlast hmask.symm
    simp only [dropTransactions, hff, hlast, UInt16.toNat_add, UInt16.toNat_one, if_false]
    omega

theorem toNat_idAfter (base : UInt8) (drops : Nat) :
    (idAfter base drops).toNat = 256 * base.toNat + cyclicId 255 drops := by
  induction drops with
  | zero =>
    have hbase := base.toNat_lt
    simp [idAfter, cyclicId, UInt16.toNat_shiftLeft, Nat.shiftLeft_eq]
    omega
  | succ drops ih =>
    rw [idAfter_succ, toNat_dropTransactions ih (cyclicId_le (by decide) drops),
      cyclicId_succ (by decide)]

theorem idAfter_distinguishes (base : UInt8) : Distinguishes (idAfter base) 255 := by
  apply (cyclicId_distinguishes 255).of_comp fun id => id.toNat - 256 * base.toNat
  intro n
  simp [toNat_idAfter]

theorem frameLengthCheck_eq_zero {length : Nat} :
    frameLengthCheck length = 0 ↔ TRANSPORT_HEADER_SIZE ≤ length ∧ length ≤ REPORT_SIZE_USER_CONFIG := by
  unfold frameLengthCheck EMSGSIZE
  split <;> omega

theorem dataLenCheck_eq_zero {length : Nat} :
    dataLenCheck length = 0 ↔ length ≤ REPORT_SIZE_USER_CONFIG - TRANSPORT_HEADER_SIZE := by
  unfold dataLenCheck EMSGSIZE
  split <;> omega

theorem parse_wellFormed {buffer : List UInt8} (h : WellFormed buffer) (target : ConfigEvent) :
    configChannelReportParse buffer buffer.length target =
      ⟨{ target with
          recipient := buffer.getD 0 0
          eventId := buffer.getD 1 0
          status := buffer.getD 2 0
          data := reportData buffer }, TRANSPORT_HEADER_SIZE + reportDataLen buffer,
        ConfigForward.assert (reportDataLen buffer ≤ target.data.length)⟩ := by
  obtain ⟨hmin, hmax, hdata⟩ := h
  have hframe := frameLengthCheck_eq_zero.mpr ⟨hmin, hmax⟩
  have hlen : dataLenCheck (reportDataLen buffer) = 0 := dataLenCheck_eq_zero.mpr (by omega)
  have hin : ¬ buffer.length - TRANSPORT_HEADER_SIZE < reportDataLen buffer := by omega
  simp [configChannelReportParse, hframe, hlen, hin]

theorem parse_rejects {buffer : List UInt8} (h : ¬ WellFormed buffer) (target : ConfigEvent) :
    (configChannelReportParse buffer buffer.length target).pos < 0 ∧
      (configChannelReportParse buffer buffer.length target).faults = [] := by
  unfold configChannelReportParse
  split_ifs with hframe hlen hin
  · refine ⟨?_, rfl⟩
    simp only [frameLengthCheck, EMSGSIZE] at hframe ⊢
    split_ifs at hframe ⊢ <;> simp at *
  · refine ⟨?_, rfl⟩
    simp only [dataLenCheck, EMSGSIZE] at hlen ⊢
    split_ifs at hlen ⊢ <;> simp at *
  · exact ⟨by simp [EMSGSIZE], rfl⟩
  · obtain ⟨hmin, hmax⟩ := frameLengthCheck_eq_zero.mp (not_ne_iff.mp hframe)
    exact absurd ⟨hmin, hmax, by omega⟩ h

theorem parseAccesses_inside (buffer : List UInt8) {size : Nat}
    (hsize : buffer.length ≤ TRANSPORT_HEADER_SIZE + size) :
    AllInside buffer.length size (parseAccesses buffer buffer.length) := by
  unfold parseAccesses
  split_ifs with hframe hlen
  · simp
  · obtain ⟨hmin, -⟩ := frameLengthCheck_eq_zero.mp (not_ne_iff.mp hframe)
    simp [hmin]
  · obtain ⟨hmin, -⟩ := frameLengthCheck_eq_zero.mp (not_ne_iff.mp hframe)
    simp only [AllInside.cons, Access.read_inside, Access.write_inside, AllInside.nil, and_true]
    omega

theorem fill_eq {event : ConfigEvent}
    (h : event.data.length ≤ REPORT_SIZE_USER_CONFIG - TRANSPORT_HEADER_SIZE) :
    configChannelReportFill (event.data.length + TRANSPORT_HEADER_SIZE) event =
      .ok (Shown.response event).frame := by
  have hframe : frameLengthCheck (event.data.length + TRANSPORT_HEADER_SIZE) = 0 :=
    frameLengthCheck_eq_zero.mpr ⟨by omega,
      by simp only [REPORT_SIZE_USER_CONFIG, TRANSPORT_HEADER_SIZE] at *; omega⟩
  have hlen := dataLenCheck_eq_zero.mpr h
  simp [configChannelReportFill, hframe, hlen, Shown.frame]

/-- `config_channel_report_parse` inverts `config_channel_report_fill`: a report that begins with the bytes
that are filled in for an event has the data exchanged with the host from that event. -/
def ReportsInverse : Prop :=
  ∀ (event target : ConfigEvent) (length : Nat) (frame rest : List UInt8),
    configChannelReportFill length event = .ok frame → (frame ++ rest).length ≤ REPORT_SIZE_USER_CONFIG →
    configChannelReportParse (frame ++ rest) (frame ++ rest).length target =
      ⟨{ target with
          recipient := event.recipient
          eventId := event.eventId
          status := event.status
          data := event.data }, frame.length,
        ConfigForward.assert (event.data.length ≤ target.data.length)⟩

theorem parse_fill : ReportsInverse := by
  intro event target length frame rest hfill hmax
  have hframe : frame = (Shown.response event).frame := by
    unfold configChannelReportFill at hfill
    split_ifs at hfill
    exact (Except.ok.inj hfill).symm
  have hlen : event.data.length ≤ REPORT_SIZE_USER_CONFIG - TRANSPORT_HEADER_SIZE := by
    rw [hframe] at hmax
    simp [Shown.frame] at hmax
    simp only [TRANSPORT_HEADER_SIZE]
    omega
  have hsize : reportDataLen (frame ++ rest) = event.data.length := by
    simp [hframe, Shown.frame, reportDataLen]
    have hmax : REPORT_SIZE_USER_CONFIG - TRANSPORT_HEADER_SIZE < 256 := by decide
    omega
  have hwell : WellFormed (frame ++ rest) := by
    refine ⟨?_, hmax, ?_⟩
    · simp [hframe, Shown.frame, TRANSPORT_HEADER_SIZE]
    · rw [hsize]
      simp [hframe, Shown.frame, TRANSPORT_HEADER_SIZE]
      omega
  have hdata : reportData (frame ++ rest) = event.data := by
    unfold reportData
    rw [hsize]
    simp [hframe, Shown.frame, TRANSPORT_HEADER_SIZE]
  rw [parse_wellFormed hwell, hsize, hdata]
  simp [hframe, Shown.frame, TRANSPORT_HEADER_SIZE]
  omega

section

variable {t : Transport}

variable {frame : List UInt8}

theorem frame_prefix_iff {data : Fin REPORT_SIZE_USER_CONFIG → UInt8}
    (hframe : frame.length ≤ REPORT_SIZE_USER_CONFIG) :
    frame <+: List.ofFn data ↔ ∀ i (hi : i < frame.length), data ⟨i, hi.trans_le hframe⟩ = frame[i] := by
  rw [List.prefix_iff_getElem?]
  apply forall₂_congr
  intro i hi
  simp [hi.trans_le hframe]

theorem overwrite_prefix (hframe : frame.length ≤ REPORT_SIZE_USER_CONFIG)
    (data : Fin REPORT_SIZE_USER_CONFIG → UInt8) : frame <+: List.ofFn (overwrite frame data) := by
  rw [frame_prefix_iff hframe]
  intro i hi
  simp [overwrite, hi]

theorem pendingHeader_length_le : pendingHeader.length ≤ REPORT_SIZE_USER_CONFIG := by decide

theorem bounds_eq_nil {input output : Nat} {as : List Access} (h : AllInside input output as) :
    bounds input output as = [] :=
  if_pos h

theorem get_faults {length : Nat} (hactive : t.state ≠ .disabled)
    (hlength : length ≤ REPORT_SIZE_USER_CONFIG) :
    (t.configChannelTransportGet length).faults = [] := by
  have hinside : AllInside REPORT_SIZE_USER_CONFIG length [.read 0 length, .write 0 length] := by
    simp [hlength]
  simp [Transport.configChannelTransportGet, assert, hactive, bounds_eq_nil hinside]

theorem get_bytes {length : Nat} (hframe : frame <+: List.ofFn t.data) :
    (t.configChannelTransportGet length).bytes <+: frame ∨
        frame <+: (t.configChannelTransportGet length).bytes :=
  List.prefix_or_prefix_of_prefix (List.take_prefix length _) hframe

def Allocated (length : Nat) : Prop :=
  TRANSPORT_HEADER_SIZE ≤ length ∧ CONFIG_EVENT_SIZE + (length - TRANSPORT_HEADER_SIZE) < SIZE_MODULUS

theorem newConfigEvent_fits {length : Nat} (h : Allocated length) :
    eventDataSize length = length - TRANSPORT_HEADER_SIZE ∧ newConfigEventFaults length = [] := by
  obtain ⟨hmin, hmax⟩ := h
  have hsize : eventDataSize length = length - TRANSPORT_HEADER_SIZE := by
    unfold eventDataSize
    rw [Nat.add_comm, Nat.add_sub_assoc hmin, Nat.add_mod_left]
    exact Nat.mod_eq_of_lt (by omega)
  refine ⟨hsize, bounds_eq_nil ?_⟩
  have hallocated : eventAllocated length = CONFIG_EVENT_SIZE + (length - TRANSPORT_HEADER_SIZE) := by
    unfold eventAllocated
    rw [hsize]
    exact Nat.mod_eq_of_lt hmax
  rw [hallocated]
  simp [CONFIG_EVENT_SIZE]
  omega

theorem set_busy (hstate : t.state = .waitRsp) (buffer : List UInt8) :
    t.configChannelTransportSet buffer = ⟨t, -EBUSY, none, []⟩ :=
  if_pos hstate

theorem set_rejects {buffer : List UInt8} (hstate : t.state ≠ .waitRsp) (hactive : t.state ≠ .disabled)
    (hlength : Allocated buffer.length) (hwell : ¬ WellFormed buffer) :
    t.configChannelTransportSet buffer = ⟨t, -EINVAL, none, []⟩ := by
  obtain ⟨hsize, hnew⟩ := newConfigEvent_fits hlength
  obtain ⟨hpos, hfaults⟩ := parse_rejects hwell (newConfigEvent buffer.length)
  have hsize' : buffer.length ≤ TRANSPORT_HEADER_SIZE + eventDataSize buffer.length := by omega
  have hinside := bounds_eq_nil (parseAccesses_inside buffer hsize')
  simp [Transport.configChannelTransportSet, hstate, hactive, assert, hnew, hpos, hfaults, hinside]

def Transport.requestOf (t : Transport) (buffer : List UInt8) : ConfigEvent :=
  { (configChannelReportParse buffer buffer.length (newConfigEvent buffer.length)).event with
    transportId := t.transportId }

theorem set_accepts {buffer : List UInt8} (hstate : t.state ≠ .waitRsp) (hactive : t.state ≠ .disabled)
    (hlength : Allocated buffer.length) (hwell : WellFormed buffer) :
    t.configChannelTransportSet buffer =
      ⟨{ t with
        timeout := true
        data := overwrite pendingHeader t.data
        dataLen := TRANSPORT_HEADER_SIZE
        state := .waitRsp }, 0, some (t.requestOf buffer), []⟩ := by
  obtain ⟨hsize, hnew⟩ := newConfigEvent_fits hlength
  have hparse := parse_wellFormed hwell (newConfigEvent buffer.length)
  have hsize' : buffer.length ≤ TRANSPORT_HEADER_SIZE + eventDataSize buffer.length := by omega
  have hinside := bounds_eq_nil (parseAccesses_inside buffer hsize')
  have hdata : reportDataLen buffer ≤ (newConfigEvent buffer.length).data.length := by
    have hlen := hwell.2.2
    simp [newConfigEvent, hsize]
    omega
  have hpos : ¬ ((TRANSPORT_HEADER_SIZE : Int) + reportDataLen buffer < 0) := by omega
  simp [Transport.configChannelTransportSet, Transport.requestOf, hstate, hactive, assert, hnew, hparse, hpos,
    hinside, ConfigForward.assert, hdata]

variable {event : ConfigEvent}

theorem response_frame_length_le
    (h : event.data.length ≤ REPORT_SIZE_USER_CONFIG - TRANSPORT_HEADER_SIZE) :
    (Shown.response event).frame.length ≤ REPORT_SIZE_USER_CONFIG := by
  simp only [REPORT_SIZE_USER_CONFIG, TRANSPORT_HEADER_SIZE] at h
  simp [Shown.frame, REPORT_SIZE_USER_CONFIG]
  omega

theorem receive_other (hid : event.transportId ≠ t.transportId) (isRequest : Bool) :
    t.configChannelTransportRspReceive event isRequest = ⟨t, false, []⟩ :=
  if_pos hid

def answerOf (event : ConfigEvent) (isRequest : Bool) : ConfigEvent :=
  if isRequest then Transport.unhandled event else event

theorem receive_own {isRequest : Bool} (hid : event.transportId = t.transportId)
    (hdata : (answerOf event isRequest).data.length ≤ REPORT_SIZE_USER_CONFIG - TRANSPORT_HEADER_SIZE) :
    t.configChannelTransportRspReceive event isRequest =
      ⟨{ t with
          state := .rspReady
          timeout := false
          data := overwrite (Shown.response (answerOf event isRequest)).frame t.data }, true, []⟩ := by
  have hfill := fill_eq hdata
  have hinside : AllInside (answerOf event isRequest).data.length REPORT_SIZE_USER_CONFIG
      (fillAccesses (answerOf event isRequest)) := by
    simp only [TRANSPORT_HEADER_SIZE, REPORT_SIZE_USER_CONFIG] at hdata
    simp [fillAccesses, TRANSPORT_HEADER_SIZE, REPORT_SIZE_USER_CONFIG]
    omega
  simp only [answerOf] at hfill hinside
  simp [Transport.configChannelTransportRspReceive, hid, hfill, bounds_eq_nil hinside, answerOf]

theorem timeoutFn_shows (h : pendingHeader <+: List.ofFn t.data) :
    Shown.timeout.frame <+: List.ofFn t.timeoutFn.transport.data := by
  rw [frame_prefix_iff (by decide)] at h ⊢
  intro i hi
  have hlt : i < 4 := hi
  have hbyte := h i hi
  interval_cases i <;> simp_all [Transport.timeoutFn, Shown.frame, pendingHeader, CONFIG_STATUS_POS]

end

end SdkNrf.Desktop.ConfigTransport
