import SdkNrf.Desktop.ConfigForward

/-!
# A peripheral with a configuration request

What a peripheral does about its request when a GATT operation is completed, its timer expires or it
disconnects.
-/

namespace SdkNrf.Desktop.ConfigForward

def Operation.number? : Operation → Option Nat
  | .write n _ => some n
  | .read n => n

def Operation.isWrite : Operation → Bool
  | .write _ _ => true
  | .read _ => false

def Matches (rsp request : ConfigEvent) : Prop :=
  rsp.transportId = request.transportId ∧ rsp.eventId = request.eventId ∧ rsp.recipient = request.recipient

instance (rsp request : ConfigEvent) : Decidable (Matches rsp request) :=
  inferInstanceAs (Decidable (_ ∧ _ ∧ _))

def TakenOver (report : List UInt8) : Prop :=
  reportDataLen report ≤ REPORT_SIZE_USER_CONFIG - TRANSPORT_HEADER_SIZE ∧
    report.getD 2 0 ≠ CONFIG_STATUS_PENDING ∧
      (report.getD 2 0 = CONFIG_STATUS_TIMEOUT ∨ report.getD 0 0 = CFG_CHAN_RECIPIENT_LOCAL)

instance (report : List UInt8) : Decidable (TakenOver report) := inferInstanceAs (Decidable (_ ∧ _ ∧ _))

/-- There is room for the data of a report in the response event, and it has the event id of its request if
it is the response. -/
def Readable (rsp : ConfigEvent) (report : List UInt8) : Prop :=
  (reportDataLen report ≤ REPORT_SIZE_USER_CONFIG - TRANSPORT_HEADER_SIZE →
    reportDataLen report ≤ rsp.data.length) ∧ (TakenOver report → report.getD 1 0 = rsp.eventId)

instance (rsp : ConfigEvent) (report : List UInt8) : Decidable (Readable rsp report) :=
  inferInstanceAs (Decidable (_ ∧ _))

def Peripheral.own (per : Peripheral) (n : Nat) : List Operation :=
  per.inFlight.filter fun o => o.number? = some n

def Peripheral.stepsLeft (per : Peripheral) : Nat :=
  match per.cfgChanRsp with
  | none => 0
  | some rsp =>
    if (per.own rsp.number).any Operation.isWrite then 2 * CFG_CHAN_MAX_RSP_POLL_CNT + 1
    else if per.readRsp then 2 * (CFG_CHAN_MAX_RSP_POLL_CNT - per.curPollCnt)
    else 2 * (CFG_CHAN_MAX_RSP_POLL_CNT - per.curPollCnt) - 1

inductive Phase (per : Peripheral) (rsp : ConfigEvent) : Prop
  | write (report : List UInt8) (own : per.own rsp.number = [.write rsp.number report])
      (timer : per.readRsp = false) (size : rsp.status = CONFIG_STATUS_SET → rsp.data = [])
  | timer (own : per.own rsp.number = []) (timer : per.readRsp = true)
      (polls : per.curPollCnt < CFG_CHAN_MAX_RSP_POLL_CNT)
  | read (own : per.own rsp.number = [.read (some rsp.number)]) (timer : per.readRsp = false)
      (polls : per.curPollCnt < CFG_CHAN_MAX_RSP_POLL_CNT)

inductive Reaction (per : Peripheral) (rsp : ConfigEvent) (reports : List (Nat × List UInt8)) :
    Outcome → Prop
  | waits {per' : Peripheral} {rsp' : ConfigEvent} (held : per'.cfgChanRsp = some rsp')
      (number : rsp'.number = rsp.number) (same : Matches rsp' rsp) (phase : Phase per' rsp')
      (cfgChanId : per'.cfgChanId = per.cfgChanId)
      (inFlight : ∀ o ∈ per'.inFlight, o ∈ per.inFlight ∨ o.number? = some rsp.number)
      (pending : ∀ r ∈ reports, ¬ TakenOver r.2) (closer : per'.stepsLeft < per.stepsLeft) :
      Reaction per rsp reports ⟨per', [], []⟩
  | answers {per' : Peripheral} {answer : ConfigEvent} (free : per'.cfgChanRsp = none)
      (timer : per'.readRsp = false) (number : answer.number = rsp.number) (same : Matches answer rsp)
      (cfgChanId : per'.cfgChanId = per.cfgChanId ∨ per'.cfgChanId = CFG_CHAN_UNUSED_PEER_ID)
      (inFlight : ∀ o ∈ per'.inFlight, o ∈ per.inFlight)
      (taken : ∀ r ∈ reports, TakenOver r.2 → r.1 = rsp.number ∧ answer.status = r.2.getD 2 0 ∧
        answer.data = reportData r.2) : Reaction per rsp reports ⟨per', [answer], []⟩

section Reactions

variable {per : Peripheral} {rsp : ConfigEvent} {o : Operation}

theorem stepsLeft_write {report : List UInt8} (own : per.own rsp.number = [.write rsp.number report])
    (hrsp : per.cfgChanRsp = some rsp) : per.stepsLeft = 2 * CFG_CHAN_MAX_RSP_POLL_CNT + 1 := by
  simp [Peripheral.stepsLeft, hrsp, own, Operation.isWrite]

theorem stepsLeft_timer (own : per.own rsp.number = []) (hrsp : per.cfgChanRsp = some rsp)
    (timer : per.readRsp = true) :
    per.stepsLeft = 2 * (CFG_CHAN_MAX_RSP_POLL_CNT - per.curPollCnt) := by
  simp [Peripheral.stepsLeft, hrsp, own, timer]

theorem stepsLeft_read (own : per.own rsp.number = [.read (some rsp.number)])
    (hrsp : per.cfgChanRsp = some rsp) (timer : per.readRsp = false) :
    per.stepsLeft = 2 * (CFG_CHAN_MAX_RSP_POLL_CNT - per.curPollCnt) - 1 := by
  simp [Peripheral.stepsLeft, hrsp, own, timer, Operation.isWrite]

theorem Phase.stepsLeft_pos (h : Phase per rsp) (hrsp : per.cfgChanRsp = some rsp) : 0 < per.stepsLeft := by
  cases h with
  | write report own =>
    rw [stepsLeft_write own hrsp]
    omega
  | timer own timer polls =>
    rw [stepsLeft_timer own hrsp timer]
    omega
  | read own timer polls =>
    rw [stepsLeft_read own hrsp timer]
    omega

theorem own_erase (n : Nat) : Peripheral.own { per with inFlight := per.inFlight.erase o } n =
    (per.own n).erase o := List.erase_filter.symm

theorem mem_own {n : Nat} : o ∈ per.own n ↔ o ∈ per.inFlight ∧ o.number? = some n := by
  simp [Peripheral.own]

theorem Phase.own_eq (h : Phase per rsp) (ho : o ∈ per.inFlight) (hnumber : o.number? = some rsp.number) :
    per.own rsp.number = [o] ∧ per.readRsp = false := by
  have hmem : o ∈ per.own rsp.number := mem_own.mpr ⟨ho, hnumber⟩
  cases h with
  | write report own timer =>
    rw [own, List.mem_singleton] at hmem
    exact ⟨hmem ▸ own, timer⟩
  | timer own =>
    rw [own] at hmem
    cases hmem
  | read own timer =>
    rw [own, List.mem_singleton] at hmem
    exact ⟨hmem ▸ own, timer⟩

theorem errorRsp_reaction {per' : Peripheral} {rsp' : ConfigEvent} {reports : List (Nat × List UInt8)}
    {status : UInt8} (hrsp : per'.cfgChanRsp = some rsp') (hnumber : rsp'.number = rsp.number)
    (hsame : Matches rsp' rsp) (htimer : per'.readRsp = false)
    (hid : per'.cfgChanId = per.cfgChanId ∨ per'.cfgChanId = CFG_CHAN_UNUSED_PEER_ID)
    (hinFlight : ∀ o ∈ per'.inFlight, o ∈ per.inFlight) (hreports : ∀ r ∈ reports, ¬ TakenOver r.2) :
    Reaction per rsp reports (per'.submitForwardErrorRsp status) := by
  rw [Peripheral.submitForwardErrorRsp, hrsp]
  exact .answers rfl htimer hnumber hsame hid hinFlight fun r hr htaken => absurd htaken (hreports r hr)

theorem disconnect_reaction (hrsp : per.cfgChanRsp = some rsp) : Reaction per rsp [] per.disconnect := by
  have hsome : per.cfgChanRsp.isSome = true := by simp [hrsp]
  rw [Peripheral.disconnect, if_pos hsome]
  apply errorRsp_reaction
  · exact hrsp
  · rfl
  · exact ⟨rfl, rfl, rfl⟩
  · rfl
  · exact Or.inr rfl
  · exact fun _ ho => ho
  · exact fun _ hr => absurd hr List.not_mem_nil

theorem readRspFn_reaction (h : Phase per rsp) (hrsp : per.cfgChanRsp = some rsp)
    (htimer : per.readRsp = true) (hfeature : ∃ hidc ∈ per.hidc, hidc.hasFeature = true) (readErr : Int) :
    Reaction per rsp [] (per.readRspFn readErr) := by
  have hfound : per.hidc.any (·.hasFeature) = true := by
    obtain ⟨hidc, hhidc, hhas⟩ := hfeature
    have hsome : per.hidc = some hidc := hhidc
    simpa [hsome] using hhas
  cases h with
  | write report own timer => simp [timer] at htimer
  | read own timer => simp [timer] at htimer
  | timer own timer polls =>
    simp only [Peripheral.readRspFn, hfound, if_true, assert, List.nil_append]
    by_cases herr : readErr ≠ 0
    · rw [if_pos herr]
      exact errorRsp_reaction hrsp rfl ⟨rfl, rfl, rfl⟩ rfl (Or.inl rfl) (fun _ ho => ho)
        fun _ hr => absurd hr List.not_mem_nil
    · rw [if_neg herr]
      have hown : Peripheral.own { per with
          readRsp := false
          inFlight := per.inFlight ++ [.read (per.cfgChanRsp.map (·.number))] } rsp.number =
          [.read (some rsp.number)] := by
        have hold : per.inFlight.filter (fun o => o.number? = some rsp.number) = [] := own
        simp only [Peripheral.own, List.filter_append, hold, hrsp]
        simp [Operation.number?]
      refine .waits hrsp rfl ⟨rfl, rfl, rfl⟩ (.read hown rfl polls) rfl (fun o ho => ?_)
        (fun _ hr => absurd hr List.not_mem_nil) ?_
      · rcases List.mem_append.mp ho with ho | ho
        · exact Or.inl ho
        · rw [List.mem_singleton.mp ho, hrsp]
          exact Or.inr rfl
      · rw [stepsLeft_read hown hrsp rfl, stepsLeft_timer own hrsp timer]
        dsimp only
        omega

theorem hidcWriteCb_reaction {report : List UInt8} (hrsp : per.cfgChanRsp = some rsp)
    (own : per.own rsp.number = [.write rsp.number report]) (timer : per.readRsp = false)
    (size : rsp.status = CONFIG_STATUS_SET → rsp.data = []) (err : UInt8) :
    Reaction per rsp [] (Peripheral.hidcWriteCb
      { per with inFlight := per.inFlight.erase (.write rsp.number report) } err) := by
  have hinFlight (o : Operation) (ho : o ∈ per.inFlight.erase (.write rsp.number report)) :
      o ∈ per.inFlight := List.mem_of_mem_erase ho
  rw [Peripheral.hidcWriteCb]
  split
  · exact errorRsp_reaction hrsp rfl ⟨rfl, rfl, rfl⟩ timer (Or.inl rfl) hinFlight
      fun _ hr => absurd hr List.not_mem_nil
  split
  · next hnone =>
    rw [hrsp] at hnone
    cases hnone
  · next rsp' hrsp' =>
    obtain rfl : rsp = rsp' := Option.some.inj (hrsp.symm.trans hrsp')
    split
    · have hown : Peripheral.own { per with
          curPollCnt := 0
          readRsp := true
          inFlight := per.inFlight.erase (.write rsp.number report) } rsp.number = [] := by
        have herased : Peripheral.own { per with
            inFlight := per.inFlight.erase (.write rsp.number report) } rsp.number =
            (per.own rsp.number).erase (.write rsp.number report) := own_erase rsp.number
        rw [own, List.erase_cons_head] at herased
        exact herased
      refine .waits hrsp rfl ⟨rfl, rfl, rfl⟩ (.timer hown rfl (Nat.zero_lt_succ 49)) rfl
        (fun o ho => Or.inl (hinFlight o ho)) (fun _ hr => absurd hr List.not_mem_nil) ?_
      rw [stepsLeft_timer hown hrsp rfl, stepsLeft_write own hrsp]
      dsimp only
      omega
    · next hset =>
      have hdata : rsp.data = [] := size (by simpa using hset)
      have hassert : assert (decide (rsp.data.length = 0)) = [] := by simp [assert, hdata]
      rw [hassert]
      exact .answers rfl timer rfl ⟨rfl, rfl, rfl⟩ (Or.inl rfl) hinFlight
        fun _ hr => absurd hr List.not_mem_nil

def ConfigEvent.withHeader (event : ConfigEvent) (report : List UInt8) : ConfigEvent :=
  { event with
    recipient := report.getD 0 0
    eventId := report.getD 1 0
    status := report.getD 2 0 }

theorem parse_eq (report : List UInt8) (event : ConfigEvent) :
    configChannelReportParse report REPORT_SIZE_USER_CONFIG event =
      if REPORT_SIZE_USER_CONFIG - TRANSPORT_HEADER_SIZE < reportDataLen report then
        ⟨event.withHeader report, -EMSGSIZE, []⟩
      else ⟨{ event.withHeader report with data := reportData report },
        TRANSPORT_HEADER_SIZE + reportDataLen report, assert (reportDataLen report ≤ event.data.length)⟩ := by
  have hframe : frameLengthCheck REPORT_SIZE_USER_CONFIG = 0 := rfl
  rw [configChannelReportParse, hframe, dataLenCheck]
  split_ifs <;> first | rfl | omega

def Unreadable (report : List UInt8) : Prop :=
  REPORT_SIZE_USER_CONFIG - TRANSPORT_HEADER_SIZE < reportDataLen report ∨
    (report.getD 2 0 ≠ CONFIG_STATUS_PENDING ∧ report.getD 2 0 ≠ CONFIG_STATUS_TIMEOUT ∧
      report.getD 0 0 ≠ CFG_CHAN_RECIPIENT_LOCAL)

section ReadCfg

variable {report : List UInt8}

theorem parse_of_readable (hreadable : Readable rsp report)
    (hroom : ¬ REPORT_SIZE_USER_CONFIG - TRANSPORT_HEADER_SIZE < reportDataLen report) :
    configChannelReportParse report REPORT_SIZE_USER_CONFIG rsp =
      ⟨{ rsp.withHeader report with data := reportData report },
        TRANSPORT_HEADER_SIZE + reportDataLen report, []⟩ := by
  rw [parse_eq, if_neg hroom]
  simp [assert, hreadable.1 (Nat.not_lt.mp hroom)]

theorem hidcReadCfg_unreadable (hrsp : per.cfgChanRsp = some rsp) (hid : rsp.recipient = per.cfgChanId)
    (hreadable : Readable rsp report) (hnot : Unreadable report) :
    ∃ event : ConfigEvent, event.number = rsp.number ∧ event.transportId = rsp.transportId ∧
      per.hidcReadCfg 0 (some report) = Peripheral.submitForwardErrorRsp
        { per with cfgChanRsp := some { event with
            recipient := rsp.recipient
            eventId := rsp.eventId } } CONFIG_STATUS_WRITE_ERROR := by
  have hsame : assert (decide (rsp.recipient = per.cfgChanId)) = [] := by simp [assert, hid]
  by_cases hlong : REPORT_SIZE_USER_CONFIG - TRANSPORT_HEADER_SIZE < reportDataLen report
  · refine ⟨rsp.withHeader report, rfl, rfl, ?_⟩
    have hneg : (if (rsp.withHeader report).status ≠ CONFIG_STATUS_PENDING ∧
        (rsp.withHeader report).status ≠ CONFIG_STATUS_TIMEOUT ∧
        (rsp.withHeader report).recipient ≠ CFG_CHAN_RECIPIENT_LOCAL then -ENOTSUP else -EMSGSIZE) < 0 := by
      split_ifs <;> decide
    rw [Peripheral.hidcReadCfg, if_neg (by decide), hrsp]
    simp only [parse_eq, if_pos hlong, hsame, List.nil_append, if_pos hneg]
  · have hother := hnot.resolve_left hlong
    refine ⟨{ rsp.withHeader report with data := reportData report }, rfl, rfl, ?_⟩
    have hneg : (if (rsp.withHeader report).status ≠ CONFIG_STATUS_PENDING ∧
        (rsp.withHeader report).status ≠ CONFIG_STATUS_TIMEOUT ∧
        (rsp.withHeader report).recipient ≠ CFG_CHAN_RECIPIENT_LOCAL then -ENOTSUP
        else (TRANSPORT_HEADER_SIZE : Int) + (reportDataLen report : Int)) < 0 := by
      split_ifs with hlocal
      · decide
      · exact absurd hother hlocal
    rw [Peripheral.hidcReadCfg, if_neg (by decide), hrsp]
    simp only [parse_of_readable hreadable hlong, hsame, List.nil_append, if_pos hneg]

theorem hidcReadCfg_readable (hrsp : per.cfgChanRsp = some rsp) (hid : rsp.recipient = per.cfgChanId)
    (hreadable : Readable rsp report) (hnot : ¬ Unreadable report) :
    per.hidcReadCfg 0 (some report) =
      if report.getD 2 0 = CONFIG_STATUS_PENDING then
        if CFG_CHAN_MAX_RSP_POLL_CNT ≤ (per.curPollCnt + 1) % 256 then Peripheral.submitForwardErrorRsp
          { per with
            cfgChanRsp := some { rsp.withHeader report with
              data := reportData report
              recipient := rsp.recipient
              eventId := rsp.eventId }
            curPollCnt := (per.curPollCnt + 1) % 256 } CONFIG_STATUS_WRITE_ERROR
        else ⟨{ per with
          cfgChanRsp := some { rsp.withHeader report with
            data := reportData report
            recipient := rsp.recipient
            eventId := rsp.eventId }
          curPollCnt := (per.curPollCnt + 1) % 256
          readRsp := true }, [], []⟩
      else ⟨{ per with cfgChanRsp := none }, [{ rsp.withHeader report with
        data := reportData report
        recipient := rsp.recipient }], []⟩ := by
  have hroom : ¬ REPORT_SIZE_USER_CONFIG - TRANSPORT_HEADER_SIZE < reportDataLen report :=
    fun hlong => hnot (Or.inl hlong)
  have hlocal : ¬ ((rsp.withHeader report).status ≠ CONFIG_STATUS_PENDING ∧
      (rsp.withHeader report).status ≠ CONFIG_STATUS_TIMEOUT ∧
      (rsp.withHeader report).recipient ≠ CFG_CHAN_RECIPIENT_LOCAL) := fun hother => hnot (Or.inr hother)
  have hsame : assert (decide (rsp.recipient = per.cfgChanId)) = [] := by simp [assert, hid]
  have hpos : ¬ ((TRANSPORT_HEADER_SIZE : Int) + (reportDataLen report : Int) < 0) := by omega
  rw [Peripheral.hidcReadCfg, if_neg (by decide), hrsp]
  simp only [parse_of_readable hreadable hroom, if_neg hlocal, hsame, List.nil_append, if_neg hpos]
  rfl

end ReadCfg

theorem not_takenOver_of_unreadable {report : List UInt8} (h : Unreadable report) : ¬ TakenOver report := by
  rintro ⟨hlength, hpending, hfrom⟩
  rcases h with hlong | ⟨-, htimeout, hlocal⟩
  · exact Nat.not_lt.mpr hlength hlong
  · exact hfrom.elim htimeout hlocal

theorem hidcReadCfg_reaction (hrsp : per.cfgChanRsp = some rsp)
    (own : per.own rsp.number = [.read (some rsp.number)]) (timer : per.readRsp = false)
    (polls : per.curPollCnt < CFG_CHAN_MAX_RSP_POLL_CNT) (hid : rsp.recipient = per.cfgChanId)
    {report : List UInt8} (hreadable : Readable rsp report) :
    Reaction per rsp [(rsp.number, report)] (Peripheral.hidcReadCfg
      { per with inFlight := per.inFlight.erase (.read (some rsp.number)) } 0 (some report)) := by
  have hown (rsp' : ConfigEvent) (n : Nat) (timer : Bool) : Peripheral.own { per with
      cfgChanRsp := some rsp'
      curPollCnt := n
      readRsp := timer
      inFlight := per.inFlight.erase (.read (some rsp.number)) } rsp.number = [] := by
    have herased : Peripheral.own { per with
        inFlight := per.inFlight.erase (.read (some rsp.number)) } rsp.number =
        (per.own rsp.number).erase (.read (some rsp.number)) := own_erase rsp.number
    rw [own, List.erase_cons_head] at herased
    exact herased
  have hpoll : CFG_CHAN_MAX_RSP_POLL_CNT = 50 := rfl
  have hrsp' : Peripheral.cfgChanRsp
      { per with inFlight := per.inFlight.erase (.read (some rsp.number)) } = some rsp := hrsp
  by_cases hnot : Unreadable report
  · obtain ⟨event, hnumber, htransport, heq⟩ := hidcReadCfg_unreadable hrsp' hid hreadable hnot
    rw [heq]
    apply errorRsp_reaction
    · rfl
    · exact hnumber
    · exact ⟨htransport, rfl, rfl⟩
    · exact timer
    · exact Or.inl rfl
    · exact fun _ ho => List.mem_of_mem_erase ho
    · intro r hr
      rw [List.mem_singleton.mp hr]
      exact not_takenOver_of_unreadable hnot
  · rw [hidcReadCfg_readable hrsp' hid hreadable hnot]
    split
    · next hpending =>
      have hwaits (r : Nat × List UInt8) (hr : r ∈ [(rsp.number, report)]) : ¬ TakenOver r.2 := by
        rw [List.mem_singleton.mp hr]
        exact fun htaken => htaken.2.1 hpending
      split
      · apply errorRsp_reaction
        · rfl
        · rfl
        · exact ⟨rfl, rfl, rfl⟩
        · exact timer
        · exact Or.inl rfl
        · exact fun _ ho => List.mem_of_mem_erase ho
        · exact hwaits
      · next hpolls =>
        have hcnt : (per.curPollCnt + 1) % 256 = per.curPollCnt + 1 := by omega
        dsimp only at hpolls ⊢
        rw [hcnt] at hpolls ⊢
        refine .waits rfl rfl ⟨rfl, rfl, rfl⟩ (.timer (hown _ _ _) rfl (Nat.not_le.mp hpolls)) rfl
          (fun o ho => Or.inl (List.mem_of_mem_erase ho)) hwaits ?_
        · refine (stepsLeft_timer ?_ rfl rfl).trans_lt ?_
          · exact hown _ _ _
          · rw [stepsLeft_read own hrsp timer]
            dsimp only
            omega
    · next hresponse =>
      have htaken : TakenOver report := by
        have hroom : reportDataLen report ≤ REPORT_SIZE_USER_CONFIG - TRANSPORT_HEADER_SIZE :=
          Nat.not_lt.mp fun hlong => hnot (Or.inl hlong)
        refine ⟨hroom, hresponse, ?_⟩
        by_contra hfrom
        rw [not_or] at hfrom
        exact hnot (Or.inr ⟨hresponse, hfrom⟩)
      refine .answers rfl timer rfl ⟨rfl, hreadable.2 htaken, rfl⟩ (Or.inl rfl)
        (fun o ho => List.mem_of_mem_erase ho) fun r hr _ => ?_
      · rw [List.mem_singleton.mp hr]
        exact ⟨rfl, rfl, rfl⟩

theorem complete_reaction {s : State} {p : Nat} (h : Phase (s.peripherals p) rsp)
    (hrsp : (s.peripherals p).cfgChanRsp = some rsp) (hid : rsp.recipient = (s.peripherals p).cfgChanId)
    (ho : o ∈ (s.peripherals p).inFlight) (hnumber : o.number? = some rsp.number) {err : UInt8}
    {data : List UInt8} (hreadable : o.isWrite = false → err = 0 ∧ Readable rsp data) :
    Reaction (s.peripherals p) rsp (s.readFor p o err data) ((s.peripherals p).complete o err data) := by
  obtain ⟨hown, htimer⟩ := h.own_eq ho hnumber
  cases o with
  | write n report =>
    obtain rfl : n = rsp.number := Option.some.inj hnumber
    cases h with
    | write report' own timer size => exact hidcWriteCb_reaction hrsp hown htimer size err
    | timer own =>
      rw [own] at hown
      cases hown
    | read own =>
      rw [own] at hown
      cases hown
  | read n =>
    obtain rfl : n = some rsp.number := hnumber
    obtain ⟨rfl, hread⟩ := hreadable rfl
    have hreports : s.readFor p (.read (some rsp.number)) 0 data = [(rsp.number, data)] := by
      simp [State.readFor, hrsp]
    rw [hreports]
    cases h with
    | write report own =>
      rw [own] at hown
      cases hown
    | timer own =>
      rw [own] at hown
      cases hown
    | read own timer polls => exact hidcReadCfg_reaction hrsp own timer polls hid hread

end Reactions

end SdkNrf.Desktop.ConfigForward
