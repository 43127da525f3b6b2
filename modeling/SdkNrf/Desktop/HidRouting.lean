import SdkNrf.Desktop.HidContent

/-!
# Routing of reports

Which report state the data of each report is sent through, and how many reports are in flight.
-/

namespace SdkNrf.Desktop.HidReports

open SdkNrf.Desktop.HidState

section Accesses

variable (s : HidState) (d d' r q : ReportId) (i j : Nat)

@[simp] theorem setRd_reportData (rd : ReportData) :
    (s.setRd d rd).reportData d' = if d' = d then rd else s.reportData d' :=
  Function.update_apply ..

@[simp] theorem setSubscriber_subscriber (sub : Subscriber) :
    (s.setSubscriber i sub).subscriber j = if j = i then sub else s.subscriber j :=
  Function.update_apply ..

@[simp] theorem setReportCnt_rs (reportCnt : Nat) :
    (s.setSubscriber i { s.subscriber i with reportCnt := reportCnt }).rs j q = s.rs j q := by
  by_cases hj : j = i <;> simp [HidState.rs, hj]

end Accesses

def HidReportEvent.key (event : HidReportEvent) : Option Nat × ReportId := (event.subscriber, event.reportId)

def HidState.Enabled (s : HidState) (i : Nat) (r : ReportId) : Prop := (s.rs i r).state ≠ .DISCONNECTED

instance (s : HidState) (i : Nat) (r : ReportId) : Decidable (s.Enabled i r) :=
  inferInstanceAs (Decidable ((s.rs i r).state ≠ .DISCONNECTED))

structure StateWired (cfg : Config) (flight : List (Option Nat × ReportId)) (i : Nat) (id : Option Nat)
    (isUsb : Bool) (r : ReportId) (x : ReportState) : Prop where
  enabled : x.state ≠ .DISCONNECTED →
    x.subscriber = some i ∧ x.reportId = some r ∧ x.linkedRd = some r.dataId ∧ r ∈ cfg.reports
  cnt : x.state ≠ .DISCONNECTED → x.cnt = flight.count (id, r)
  disabled : x.state = .DISCONNECTED → x.linkedRd = none ∧ x.cnt = 0
  depth : x.cnt ≤ pipelineDepth isUsb (some r)

structure SlotWired (cfg : Config) (flight : List (Option Nat × ReportId)) (i : Nat) (sub : Subscriber) :
    Prop where
  slot : sub.id ≠ none → i < cfg.subscriberCount
  idle : sub.id = none → sub = clearedSubscriber
  state : ∀ r, StateWired cfg flight i sub.id sub.isUsb r (sub.state r)
  reportCnt : sub.id ≠ none → sub.reportCnt = flight.countP (·.1 = sub.id)
  reportMax : sub.reportCnt ≤ sub.reportMax ∧ sub.reportMax ≤ 255 ∧ (sub.id ≠ none → 0 < sub.reportMax)

structure Slots (cfg : Config) (flight : List (Option Nat × ReportId)) (f : Nat → Subscriber) : Prop where
  slots : ∀ i, SlotWired cfg flight i (f i)
  distinct : ∀ i j id, (f i).id = some id → (f j).id = some id → i = j
  known : ∀ key ∈ flight, ∃ i id, (f i).id = some id ∧ key.1 = some id ∧ key.2 ∈ cfg.reports

structure Chosen (f : Nat → Subscriber) (chosen : Option Nat) : Prop where
  selected : ∀ i, chosen = some i → (f i).id ≠ none
  usbFirst : ∀ i j, (f i).isUsb = true → chosen = some j → (f j).isUsb = true
  someSelected : ∀ i id, (f i).id = some id → chosen ≠ none

/-- The slots, the links and the counters are consistent while these reports are in flight. Data
without a link has no items. -/
structure Wired (cfg : Config) (flight : List (Option Nat × ReportId)) (s : HidState) : Prop extends
    Slots cfg flight s.subscriber, Chosen s.subscriber s.selected where
  linked : ∀ d i r, (s.reportData d).linkedRs = some (i, r) →
    s.selected = some i ∧ r.dataId = d ∧ s.Enabled i r
  blank : ∀ d, (s.reportData d).linkedRs = none → ∀ u ≠ 0, held (s.reportData d).items.item u = 0

/-- The data of each report of the selected subscriber is linked to the report, unless it is a boot report
that is enabled together with the other one. -/
def Routed (s : HidState) : Prop :=
  ∀ i r, s.selected = some i → s.Enabled i r → (s.Enabled i r.dataId → r = r.dataId) →
    (s.reportData r.dataId).linkedRs = some (i, r)

def Contents (cfg : Config) (timely : Prop) (pressed : ReportId → UInt16 → Nat) (s : HidState) : Prop :=
  ∀ d, Content cfg timely (pressed d) d (s.reportData d)

def HidState.recount (s : HidState) (i : Nat) (r : ReportId) (n : Nat) (x : ReportState) : HidState :=
  s.setSubscriber i { s.subscriber i with
    reportCnt := n
    state := Function.update (s.subscriber i).state r x }

section Recount

variable (s : HidState) (i j : Nat) (r q : ReportId) (n : Nat) (x : ReportState)

theorem setRs_eq : s.setRs i r x = s.recount i r (s.subscriber i).reportCnt x := rfl

@[simp] theorem setRs_selected : (s.setRs i r x).selected = s.selected := rfl

theorem recount_rs : (s.recount i r n x).rs j q = if j = i ∧ q = r then x else s.rs j q := by
  by_cases hj : j = i
  · subst hj
    by_cases hq : q = r <;> simp [HidState.rs, HidState.recount, hq]
  · simp [HidState.rs, HidState.recount, hj]

theorem recount_enabled : (s.recount i r n x).Enabled j q ↔
    if j = i ∧ q = r then x.state ≠ .DISCONNECTED else s.Enabled j q := by
  rw [HidState.Enabled, recount_rs]
  split <;> rfl

theorem recount_subscriber : ((s.recount i r n x).subscriber j).id = (s.subscriber j).id ∧
    ((s.recount i r n x).subscriber j).isUsb = (s.subscriber j).isUsb ∧
    ((s.recount i r n x).subscriber j).reportMax = (s.subscriber j).reportMax ∧
    ((s.recount i r n x).subscriber j).reportCnt = if j = i then n else (s.subscriber j).reportCnt := by
  by_cases hj : j = i <;> simp [HidState.recount, hj]

end Recount

section Slots

variable {cfg : Config} {flight flight' : List (Option Nat × ReportId)} {s s' : HidState} {i id : Nat}
  {isUsb : Bool} {d r : ReportId} {rd : ReportData} {sub : Subscriber} {x : ReportState}

theorem StateWired.cleared (id : Option Nat) : StateWired cfg flight i id isUsb r clearedState :=
  ⟨fun h => absurd rfl h, fun h => absurd rfl h, fun _ => ⟨rfl, rfl⟩, Nat.zero_le _⟩

theorem SlotWired.cleared : SlotWired cfg flight i clearedSubscriber :=
  ⟨fun h => absurd rfl h, fun _ => rfl, fun _ => .cleared _, fun h => absurd rfl h, le_rfl, Nat.zero_le _,
    fun h => absurd rfl h⟩

theorem SlotWired.congr (h : SlotWired cfg flight i sub)
    (hcountP : flight'.countP (·.1 = sub.id) = flight.countP (·.1 = sub.id))
    (hcount : ∀ q, flight'.count (sub.id, q) = flight.count (sub.id, q)) : SlotWired cfg flight' i sub where
  slot := h.slot
  idle := h.idle
  state := fun r => { h.state r with cnt := fun hr => ((h.state r).cnt hr).trans (hcount r).symm }
  reportCnt := fun hid => (h.reportCnt hid).trans hcountP.symm
  reportMax := h.reportMax

theorem Wired.enabled (h : Wired cfg flight s) (i : Nat) (r : ReportId) (hr : s.Enabled i r) :
    (s.rs i r).subscriber = some i ∧ (s.rs i r).reportId = some r ∧ (s.rs i r).linkedRd = some r.dataId ∧
      r ∈ cfg.reports :=
  ((h.slots i).state r).enabled hr

theorem Wired.disabled (h : Wired cfg flight s) (i : Nat) (r : ReportId) (hr : ¬ s.Enabled i r) :
    (s.rs i r).linkedRd = none ∧ (s.rs i r).cnt = 0 :=
  ((h.slots i).state r).disabled (of_not_not hr)

theorem Wired.cnt (h : Wired cfg flight s) (hid : (s.subscriber i).id = some id) (hr : s.Enabled i r) :
    (s.rs i r).cnt = flight.count (some id, r) :=
  hid ▸ ((h.slots i).state r).cnt hr

theorem Wired.reportCnt (h : Wired cfg flight s) (hid : (s.subscriber i).id = some id) :
    (s.subscriber i).reportCnt = flight.countP (·.1 = some id) := by
  rw [(h.slots i).reportCnt (by simp [hid]), hid]

theorem Wired.update (h : Wired cfg flight s) (hid : (s.subscriber i).id = some id) {n : Nat}
    (hx : StateWired cfg flight' i (some id) (s.subscriber i).isUsb r x)
    (hcount : ∀ key ≠ (some id, r), flight'.count key = flight.count key)
    (hcountP : ∀ k ≠ some id, flight'.countP (·.1 = k) = flight.countP (·.1 = k))
    (hn : n = flight'.countP (·.1 = some id)) (hmax : n ≤ (s.subscriber i).reportMax)
    (hknown : ∀ key ∈ flight', key ∈ flight ∨ key = (some id, r) ∧ r ∈ cfg.reports)
    (hlinked : x.state = .DISCONNECTED → ∀ d, (s.reportData d).linkedRs ≠ some (i, r)) :
    Wired cfg flight' (s.recount i r n x) := by
  have hids (j : Nat) := recount_subscriber s i j r n x
  refine ⟨⟨?slots, ?distinct, ?known⟩, ⟨?selected, ?usbFirst, ?someSelected⟩, ?linked, h.blank⟩
  case slots =>
    intro j
    by_cases hj : j = i
    · subst hj
      have hslot := h.slots j
      rw [HidState.recount, setSubscriber_subscriber, if_pos rfl]
      refine ⟨hslot.slot, fun hnone => absurd (hid.symm.trans hnone) (by simp), fun q => ?_,
        fun _ => ?_, hmax,
        hslot.reportMax.2⟩
      · have hq := hslot.state q
        simp only [hid] at hq ⊢
        by_cases hqr : q = r
        · subst hqr
          simpa using hx
        · rw [Function.update_of_ne hqr]
          exact { hq with cnt := fun henabled => by rw [hq.cnt henabled, hcount _ (by simp [hqr])] }
      · simp only [hid, hn]
    · have hne : (s.subscriber j).id ≠ some id := fun heq => hj (h.distinct j i id heq hid)
      rw [HidState.recount, setSubscriber_subscriber, if_neg hj]
      exact (h.slots j).congr (hcountP _ hne) fun q => hcount _ fun heq => hne (Prod.mk.inj heq).1
  case distinct =>
    intro j k jd hj hk
    exact h.distinct j k jd ((hids j).1.symm.trans hj) ((hids k).1.symm.trans hk)
  case selected =>
    intro j hj
    rw [(hids j).1]
    exact h.selected j hj
  case usbFirst =>
    intro j k hj hk
    rw [(hids j).2.1] at hj
    rw [(hids k).2.1]
    exact h.usbFirst j k hj hk
  case someSelected => exact fun j jd hj => h.someSelected j jd ((hids j).1.symm.trans hj)
  case known =>
    intro key hkey
    rcases hknown key hkey with hold | ⟨rfl, hr⟩
    · obtain ⟨j, jd, hjd, heq⟩ := h.known key hold
      exact ⟨j, jd, (hids j).1.trans hjd, heq⟩
    · exact ⟨i, id, (hids i).1.trans hid, rfl, hr⟩
  case linked =>
    intro d j q hl
    obtain ⟨hj, hd, hq⟩ := h.linked d j q hl
    refine ⟨hj, hd, (recount_enabled s i j r q n x).mpr ?_⟩
    split
    next hjq =>
      obtain ⟨rfl, rfl⟩ := hjq
      exact fun hstate => hlinked hstate d hl
    next => exact hq

theorem Wired.setRd (h : Wired cfg flight s)
    (hlinked : ∀ i r, rd.linkedRs = some (i, r) → s.selected = some i ∧ r.dataId = d ∧ s.Enabled i r)
    (hblank : rd.linkedRs = none → ∀ u ≠ 0, held rd.items.item u = 0) : Wired cfg flight (s.setRd d rd) :=
  { h with
    linked := fun d' i r hl => by
      rw [setRd_reportData] at hl
      split at hl
      next heq => exact heq ▸ hlinked i r hl
      next => exact h.linked d' i r hl
    blank := fun d' hd => by
      rw [setRd_reportData] at hd ⊢
      split at hd
      next heq =>
        rw [if_pos heq]
        exact hblank hd
      next hne =>
        rw [if_neg hne]
        exact h.blank d' hd }

end Slots

theorem pipelineDepth_le (isUsb : Bool) (reportId : Option ReportId) : pipelineDepth isUsb reportId ≤ 2 := by
  rw [pipelineDepth]
  split <;> omega

theorem pipelineDepth_pos (isUsb : Bool) (reportId : Option ReportId) : 0 < pipelineDepth isUsb reportId := by
  rw [pipelineDepth]
  split <;> omega

structure Sends (s s' : HidState) (sent : List HidReportEvent) : Prop where
  selected : s'.selected = s.selected
  submitted : s'.submitted = s.submitted ++ sent
  linkedRs : ∀ d, (s'.reportData d).linkedRs = (s.reportData d).linkedRs
  subscriber : ∀ i, (s'.subscriber i).id = (s.subscriber i).id ∧
    (s'.subscriber i).reportMax = (s.subscriber i).reportMax
  enabled : ∀ i r, s'.Enabled i r ↔ s.Enabled i r
  cnt : ∀ i r, (s.rs i r).cnt ≤ (s'.rs i r).cnt
  reportCnt : ∀ i, s.selected = some i →
    (s'.subscriber i).reportCnt = (s.subscriber i).reportCnt + sent.length

/-- Data with a link has nothing to send, or a confirmation is awaited that will send it: one of the
report, or, when its subscriber can take no more, one of any report. -/
def AwakeAt (s : HidState) (d : ReportId) : Prop :=
  ∀ i r, (s.reportData d).linkedRs = some (i, r) →
    0 < (s.rs i r).cnt ∨ (s.subscriber i).reportMax ≤ (s.subscriber i).reportCnt ∨ (s.reportData d).Done

section Sends

variable {cfg : Config} {timely : Prop} {pressed : ReportId → UInt16 → Nat}
  {flight : List (Option Nat × ReportId)} {s s' : HidState} {i id : Nat}
  {r : ReportId}

theorem Sends.refl (s : HidState) : Sends s s [] := by
  constructor <;> simp

theorem Routed.sends {sent : List HidReportEvent} (h : Routed s) (hs : Sends s s' sent) : Routed s' := by
  intro i r hi hr hboot
  rw [hs.selected] at hi
  rw [hs.enabled] at hr
  rw [hs.enabled] at hboot
  rw [hs.linkedRs]
  exact h i r hi hr hboot

theorem AwakeAt.mono {d : ReportId} (h : AwakeAt s d) (hdata : s'.reportData d = s.reportData d)
    (hcounts : ∀ i r, (s.reportData d).linkedRs = some (i, r) → (s.rs i r).cnt ≤ (s'.rs i r).cnt ∧
      (s.subscriber i).reportCnt ≤ (s'.subscriber i).reportCnt ∧
      (s'.subscriber i).reportMax = (s.subscriber i).reportMax) : AwakeAt s' d := by
  intro i r hl
  rw [hdata] at hl ⊢
  obtain ⟨hcnt, hreportCnt, hmax⟩ := hcounts i r hl
  rw [hmax]
  exact (h i r hl).imp (fun h => h.trans_le hcnt) (Or.imp_left fun h => h.trans hreportCnt)

theorem AwakeAt.sends {d : ReportId} {sent : List HidReportEvent} (h : AwakeAt s d)
    (hw : Wired cfg flight s) (hs : Sends s s' sent) (hdata : s'.reportData d = s.reportData d) :
    AwakeAt s' d := by
  apply h.mono hdata
  intro i r hl
  rw [hs.reportCnt i (hw.linked d i r hl).1]
  exact ⟨hs.cnt i r, Nat.le_add_right .., (hs.subscriber i).2⟩

def sentState (rs : ReportState) (n : Nat) : ReportState :=
  { rs with cnt := rs.cnt + n, state := if rs.cnt + n ≠ 0 then .CONNECTED_BUSY else rs.state }

theorem sentState_enabled {rs : ReportState} (h : rs.state ≠ .DISCONNECTED) (n : Nat) :
    (sentState rs n).state ≠ .DISCONNECTED := by
  rw [sentState]
  split <;> simp [h]

def HidState.sent (s : HidState) (i : Nat) (r : ReportId) (rd : ReportData) (reports : List HidReportEvent) :
    HidState :=
  ((s.setRd r.dataId rd).recount i r ((s.subscriber i).reportCnt + reports.length)
    (sentState (s.rs i r) reports.length)).submit reports

theorem sends_sent {rd : ReportData} (hselected : s.selected = some i) (henabled : s.Enabled i r)
    (hlinked : rd.linkedRs = (s.reportData r.dataId).linkedRs) (reports : List HidReportEvent) :
    Sends s (s.sent i r rd reports) reports where
  selected := rfl
  submitted := rfl
  linkedRs := fun d => by by_cases hd : d = r.dataId <;> simp [HidState.sent, HidState.recount, hd, hlinked]
  subscriber := fun j => by
    obtain ⟨hid, -, hmax, -⟩ := recount_subscriber (s.setRd r.dataId rd) i j r _ _
    exact ⟨hid, hmax⟩
  enabled := fun j q => by
    apply (recount_enabled (s.setRd r.dataId rd) i j r q _ _).trans
    split
    next hjq =>
      obtain ⟨rfl, rfl⟩ := hjq
      exact iff_of_true (sentState_enabled henabled _) henabled
    next => rfl
  cnt := fun j q => by
    have hrs := recount_rs (s.setRd r.dataId rd) i j r q ((s.subscriber i).reportCnt + reports.length)
      (sentState (s.rs i r) reports.length)
    apply le_of_le_of_eq _ (congrArg ReportState.cnt hrs).symm
    split
    next hjq =>
      obtain ⟨rfl, rfl⟩ := hjq
      exact Nat.le_add_right ..
    next => exact le_rfl
  reportCnt := fun j hj => by
    obtain rfl : i = j := Option.some.inj (hselected.symm.trans hj)
    simp [HidState.sent, HidState.recount]

theorem Wired.sent (h : Wired cfg flight s) (hid : (s.subscriber i).id = some id) (henabled : s.Enabled i r)
    (hlink : (s.reportData r.dataId).linkedRs = some (i, r)) {rd : ReportData}
    (hlinked : rd.linkedRs = (s.reportData r.dataId).linkedRs) {reports : List HidReportEvent}
    (hevents : ∀ event ∈ reports, event.subscriber = some id ∧ event.reportId = r)
    (hcnt : (s.rs i r).cnt + reports.length ≤
      max (s.rs i r).cnt (pipelineDepth (s.subscriber i).isUsb (some r)))
    (hreportCnt : (s.subscriber i).reportCnt + reports.length ≤
      max (s.subscriber i).reportCnt (s.subscriber i).reportMax) :
    Wired cfg (flight ++ reports.map (·.key)) (s.sent i r rd reports) := by
  have hkeys : reports.map (·.key) = List.replicate reports.length (some id, r) := by
    rw [List.eq_replicate_iff, List.length_map]
    refine ⟨rfl, fun key hkey => ?_⟩
    obtain ⟨event, hevent, rfl⟩ := List.mem_map.mp hkey
    obtain ⟨hsubscriber, hreport⟩ := hevents event hevent
    rw [HidReportEvent.key, hsubscriber, hreport]
  have hstate := (h.slots i).state r
  have hwires := hstate.enabled henabled
  have hmax := (h.slots i).reportMax
  have hwired : Wired cfg flight (s.setRd r.dataId rd) :=
    h.setRd (fun j q hl => h.linked _ j q (hlinked ▸ hl)) fun hnone => by
      rw [hlinked, hlink] at hnone
      contradiction
  have hx : StateWired cfg (flight ++ reports.map (·.key)) i (some id) (s.subscriber i).isUsb r
      (sentState (s.rs i r) reports.length) := by
    refine ⟨fun _ => hwires, fun _ => ?_, fun hnot => absurd hnot (sentState_enabled henabled _), ?_⟩
    · rw [hkeys, List.count_append, List.count_replicate_self, ← h.cnt hid henabled]
      rfl
    · exact hcnt.trans (max_le hstate.depth le_rfl)
  have hsent : Wired cfg (flight ++ reports.map (·.key)) ((s.setRd r.dataId rd).recount i r
      ((s.subscriber i).reportCnt + reports.length) (sentState (s.rs i r) reports.length)) := by
    apply hwired.update hid hx
    · intro key hkey
      rw [hkeys, List.count_append, List.count_replicate, if_neg (by simpa using hkey.symm), Nat.add_zero]
    · intro k hk
      rw [hkeys, List.countP_append, List.countP_replicate, if_neg (by simpa using hk.symm), Nat.add_zero]
    · rw [hkeys, List.countP_append, List.countP_replicate, h.reportCnt hid]
      simp
    · exact hreportCnt.trans (max_le hmax.1 le_rfl)
    · intro key hkey
      rw [hkeys, List.mem_append] at hkey
      exact hkey.imp_right fun hnew => ⟨List.eq_of_mem_replicate hnew, hwires.2.2.2⟩
    · exact fun hnot => absurd hnot (sentState_enabled henabled _)
  exact { hsent with }

/-- `report_send` sends reports through the report state that the data is linked to. -/
theorem reportSend_spec (hcfg : cfg.Valid) (hw : Wired cfg flight s) (hc : Contents cfg timely pressed s)
    (d : ReportId) (checkState sendAlways : Bool) :
    ∃ s' sent, reportSend s d checkState sendAlways = some (s', !sent.isEmpty) ∧ Sends s s' sent ∧
      Wired cfg (flight ++ sent.map (·.key)) s' ∧ Contents cfg timely pressed s' ∧ AwakeAt s' d ∧
      ∀ d' ≠ d, s'.reportData d' = s.reportData d' := by
  rw [reportSend]
  cases hlink : (s.reportData d).linkedRs with
  | none =>
    exact ⟨s, [], rfl, .refl s, by simpa using hw, hc, fun i r hl => by simp [hlink] at hl, fun _ _ => rfl⟩
  | some link =>
    obtain ⟨i, r⟩ := link
    obtain ⟨hselected, rfl, henabled⟩ := hw.linked d i r hlink
    obtain ⟨hsubscriber, hreport, -, -⟩ := hw.enabled i r henabled
    obtain ⟨id, hid⟩ := Option.ne_none_iff_exists'.mp (hw.selected i hselected)
    obtain ⟨rd, reports, hrun, hcontent, hlinked, hevents, hcnt, hreportCnt, hend⟩ := sendFrom_spec hcfg
      (s.subscriber i).id (pipelineDepth_le (s.subscriber i).isUsb (some r)) (s.subscriber i).reportMax
      sendAlways 3 (hc r.dataId) (s.rs i r).cnt (s.subscriber i).reportCnt
      (by have := pipelineDepth_le (s.subscriber i).isUsb (some r); omega) (by omega)
    have hnot : ¬ (checkState = true ∧ (s.rs i r).state = .DISCONNECTED) := fun h => henabled h.2
    have hstate : (((s.setRd r.dataId rd).setSubscriber i
        { s.subscriber i with reportCnt := (s.subscriber i).reportCnt + reports.length }).setRs i r
          (sentState (s.rs i r) reports.length)).submit reports = s.sent i r rd reports := by
      simp [HidState.setRs, HidState.setSubscriber, HidState.sent, HidState.recount]
    simp only [hsubscriber, hselected, hreport, ne_eq, not_true_eq_false, if_false,
      Option.bind_some, hnot, hrun,
      Option.map_some]
    rw [hid] at hevents
    refine ⟨s.sent i r rd reports, reports, ?_, sends_sent hselected henabled hlinked reports,
      hw.sent hid henabled hlink hlinked hevents hcnt hreportCnt, ?_, ?_, ?_⟩
    · rw [← hstate, sentState, hsubscriber, hreport]
    · intro d
      by_cases hd : d = r.dataId
      · subst hd
        simpa [HidState.sent, HidState.recount] using hcontent
      · simpa [HidState.sent, HidState.recount, hd] using hc d
    · intro j q hl
      simp only [HidState.sent, HidState.recount, HidState.submit_reportData,
        HidState.setSubscriber_reportData,
        setRd_reportData, if_true, hlinked, hlink, Option.some.injEq, Prod.mk.injEq] at hl
      obtain ⟨rfl, rfl⟩ := hl
      have hdepth := pipelineDepth_pos (s.subscriber i).isUsb (some r)
      simp [HidState.sent, HidState.recount, HidState.rs, sentState]
      exact hend.imp_left fun hcnt => by
        rw [HidState.rs] at hcnt
        omega
    · intro d' hd
      simp [HidState.sent, HidState.recount, hd]

end Sends

end SdkNrf.Desktop.HidReports
