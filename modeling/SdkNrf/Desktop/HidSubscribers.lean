import SdkNrf.Desktop.HidFlow

/-!
# Subscriptions and subscribers

Enabling a report links the data to it when its subscriber is selected; the links go with the subscriber.
-/

namespace SdkNrf.Desktop.HidReports

open SdkNrf.Desktop.HidState

variable {cfg : Config} {timely reliable : Prop} {pressed : ReportId → UInt16 → Nat}
  {base flight : List (Option Nat × ReportId)} {s s' : HidState} {d r : ReportId} {i id : Nat}
  {rd : ReportData} {x : ReportState} {now : UInt32}

theorem setRs_enabled (s : HidState) (i j : Nat) (r q : ReportId) (x : ReportState) :
    (s.setRs i r x).Enabled j q ↔ if j = i ∧ q = r then x.state ≠ .DISCONNECTED else s.Enabled j q :=
  recount_enabled s i j r q _ x

theorem AwakeAt.setRs {d : ReportId} (h : AwakeAt s d)
    (hcnt : (s.reportData d).linkedRs = some (i, r) → (s.rs i r).cnt ≤ x.cnt) :
    AwakeAt (s.setRs i r x) d := by
  refine h.mono rfl fun j q hl => ?_
  obtain ⟨-, -, hmax, hreportCnt⟩ := recount_subscriber s i j r (s.subscriber i).reportCnt x
  rw [setRs_eq, recount_rs, hmax, hreportCnt]
  refine ⟨?_, ?_, rfl⟩
  · split
    next heq =>
      obtain ⟨rfl, rfl⟩ := heq
      exact hcnt hl
    next => exact le_rfl
  · split
    next heq => rw [heq]
    next => exact le_rfl

theorem Wired.setRs (h : Wired cfg flight s) (hid : (s.subscriber i).id = some id)
    (hx : StateWired cfg flight i (some id) (s.subscriber i).isUsb r x)
    (hlinked : x.state = .DISCONNECTED → ∀ d, (s.reportData d).linkedRs ≠ some (i, r)) :
    Wired cfg flight (s.setRs i r x) :=
  h.update hid hx (fun _ _ => rfl) (fun _ _ => rfl) (h.reportCnt hid) (h.slots i).reportMax.1
    (fun _ hkey => Or.inl hkey) hlinked

theorem Wired.link (h : Wired cfg flight s) (hselected : s.selected = some i) (henabled : s.Enabled i r)
    (hlinked : rd.linkedRs = some (i, r)) : Wired cfg flight (s.setRd r.dataId rd) := by
  refine h.setRd (fun j q hl => ?_) fun hnone => ?_
  · obtain ⟨rfl, rfl⟩ := Prod.mk.inj (Option.some.inj (hlinked.symm.trans hl))
    exact ⟨hselected, rfl, henabled⟩
  · rw [hlinked] at hnone
    contradiction

/-- What `connect` makes of a report state. -/
def enabledState (rs : ReportState) (i : Nat) (r : ReportId) : ReportState :=
  { rs with subscriber := some i, state := .CONNECTED_IDLE, reportId := some r, linkedRd := some r.dataId }

theorem Routed.enable (h : Routed s) (hselected : s.selected = some i)
    (hboot : r ≠ r.dataId → ¬ s.Enabled i r.dataId) (hstate : x.state ≠ .DISCONNECTED)
    (hlinked : rd.linkedRs = some (i, r)) : Routed ((s.setRs i r x).setRd r.dataId rd) := by
  intro j q hj hq hnormal
  obtain rfl : i = j := Option.some.inj (hselected.symm.trans hj)
  change (s.setRs i r x).Enabled i q at hq
  change (s.setRs i r x).Enabled i q.dataId → q = q.dataId at hnormal
  simp only [setRs_enabled, true_and] at hq hnormal
  rw [setRd_reportData]
  by_cases hdata : q.dataId = r.dataId
  · rw [if_pos hdata, hlinked]
    rcases ReportId.eq_or_dataId hdata with rfl | heq | heq
    · rfl
    · by_cases hr : r = r.dataId
      · rw [heq, ← hr]
      · rw [if_neg (by rw [heq]; exact Ne.symm hr), heq] at hq
        exact absurd hq (hboot hr)
    · have hqr := hnormal (by rw [if_pos heq.symm]; exact hstate)
      rw [heq, ← hqr]
  · have hne : q ≠ r := fun heq => hdata (heq ▸ rfl)
    have hne' : q.dataId ≠ r := fun heq => hdata (by rw [← heq, q.dataId_dataId])
    rw [if_neg hne] at hq
    rw [if_neg hne'] at hnormal
    rw [if_neg hdata]
    exact h i q hj hq hnormal

theorem Routed.enable_other (h : Routed s) (hselected : s.selected ≠ some i) : Routed (s.setRs i r x) := by
  intro j q hj hq hnormal
  have hne : ¬ (j = i) := by
    rintro rfl
    exact hselected hj
  simp only [setRs_enabled, hne, false_and, if_false] at hq hnormal
  exact h j q hj hq hnormal

/-- `connect` for a report that has no report in flight. -/
theorem Sound.connect (hcfg : cfg.Valid) (h : Sound cfg timely reliable pressed base s)
    (hsubmitted : s.submitted = [])
    (hallowed : ∀ i, (s.subscriber i).id = some id → r ∈ cfg.reports ∧ (some id, r) ∉ base ∧
      (r ≠ r.dataId → ¬ s.Enabled i r.dataId))
    (htimely : ∀ i, (s.subscriber i).id = some id → timely → (s.reportData r.dataId).linkedRs = none ∨
      Fresh cfg now (eventsOf (s.reportData r.dataId).eventq)) :
    ∃ s', connect cfg s id r now = some s' ∧ Sound cfg timely reliable pressed base s' := by
  rw [HidReports.connect]
  cases hget : getSubscriber cfg s id with
  | none => exact ⟨s, rfl, h⟩
  | some i =>
    have hid := id_of_getSubscriber hget
    obtain ⟨hr, hnone, hboot⟩ := hallowed i hid
    have hflight : (some id, r) ∉ base ++ s.submitted.map (·.key) := by simpa [hsubmitted] using hnone
    have hcnt : (s.rs i r).cnt = 0 := by
      by_cases henabled : s.Enabled i r
      · rw [h.wired.cnt hid henabled, List.count_eq_zero.mpr hflight]
      · exact (h.wired.disabled i r henabled).2
    have hx : StateWired cfg (base ++ s.submitted.map (·.key)) i (some id) (s.subscriber i).isUsb r
        (enabledState (s.rs i r) i r) :=
      ⟨fun _ => ⟨rfl, rfl, rfl, hr⟩, fun _ => hcnt.trans (List.count_eq_zero.mpr hflight).symm,
        fun hstate => by simp [enabledState] at hstate, hcnt.trans_le (Nat.zero_le _)⟩
    have hwired := h.wired.setRs hid hx fun hstate => by simp [enabledState] at hstate
    simp only [hr, not_true_eq_false, if_false, getReportData_eq (hcfg.mem_dataIds hr), Option.bind_some,
      setRs_selected]
    by_cases hselected : s.selected = some i
    · have hcontent := h.contents r.dataId
      obtain ⟨eventq, p, hrun, hqueues, hkept, -⟩ := cleanup_spec hcontent.queues hcontent.kept now
        fun ht => (htimely i hid ht).symm.imp_right (h.wired.blank r.dataId)
      have hclean : ∃ eventq' nodes, (if (eventsOf (s.reportData r.dataId).eventq).isEmpty then
          some (s.reportData r.dataId).eventq
          else eventqCleanup cfg.expiration (s.reportData r.dataId).eventq now) = some eventq' ∧
          eventq'.Queues nodes ∧
          Kept cfg timely (pressed r.dataId) r.dataId (s.reportData r.dataId).items nodes := by
        split
        · exact ⟨_, _, rfl, hcontent.queues, hcontent.kept⟩
        · exact ⟨_, _, hrun, hqueues, hkept⟩
      obtain ⟨eventq', nodes, hclean, hqueues', hkept'⟩ := hclean
      rw [if_pos hselected, eventqIsEmpty_spec hcontent.queues, Option.bind_some, hclean, Option.bind_some]
      have henabled : (s.setRs i r (enabledState (s.rs i r) i r)).Enabled i r :=
        (setRs_enabled ..).mpr (by simp [enabledState])
      have hsteady : Steady cfg timely pressed base ((s.setRs i r (enabledState (s.rs i r) i r)).setRd
          r.dataId { s.reportData r.dataId with linkedRs := some (i, r), eventq := eventq', axes := ⟨0, 0, 0⟩ }) :=
        ⟨hwired.link hselected henabled rfl, h.routed.enable hselected hboot (by simp [enabledState]) rfl,
          h.contents.setRd (.of_queues hqueues' hkept') fun _ _ => rfl⟩
      obtain ⟨s', b, hsend, hsound⟩ := hsteady.reportSend_sound hcfg (fun hr d hd => by
        apply AwakeAt.setRd _ hd
        exact (h.awake hr d).setRs fun _ => le_rfl) false true
      exact ⟨s', congrArg (Option.map Prod.fst) hsend, hsound⟩
    · rw [if_neg hselected]
      exact ⟨_, rfl, ⟨hwired, h.routed.enable_other hselected, h.contents⟩,
        fun hr d => (h.awake hr d).setRs fun _ => le_rfl⟩

/-- What `disconnect` makes of a report state. -/
def disabledState (rs : ReportState) : ReportState :=
  { rs with subscriber := none, state := .DISCONNECTED, cnt := 0, linkedRd := none }

theorem Wired.disable (h : Wired cfg flight s) (hid : (s.subscriber i).id = some id)
    (hunlinked : ∀ d, (s.reportData d).linkedRs ≠ some (i, r)) :
    Wired cfg flight (s.setRs i r (disabledState (s.rs i r))) := by
  have hx : StateWired cfg flight i (some id) (s.subscriber i).isUsb r (disabledState (s.rs i r)) :=
    ⟨fun hnot => absurd rfl hnot, fun hnot => absurd rfl hnot, fun _ => ⟨rfl, rfl⟩, Nat.zero_le _⟩
  exact h.setRs hid hx fun _ => hunlinked

theorem Routed.disable (h : Routed s) (hboot : ∀ q, q.dataId = r → q ≠ r → ¬ s.Enabled i q) :
    Routed (s.setRs i r (disabledState (s.rs i r))) := by
  intro j q hj hq hnormal
  rw [setRs_enabled] at hq hnormal
  have hjq : ¬ (j = i ∧ q = r) := by
    intro hjq
    rw [if_pos hjq] at hq
    exact hq rfl
  rw [if_neg hjq] at hq
  apply h j q hj hq
  intro hdata
  by_contra hne
  have hsame : j = i ∧ q.dataId = r := by
    by_contra hother
    rw [if_neg hother] at hnormal
    exact hne (hnormal hdata)
  obtain ⟨rfl, rfl⟩ := hsame
  exact hboot q rfl hne hq

theorem Routed.unlink_disable (h : Routed s) (hlink : (s.reportData r.dataId).linkedRs = some (i, r))
    (hboot : ∀ q, q.dataId = r → q ≠ r → ¬ s.Enabled i q) :
    Routed ((s.setRd r.dataId rd).setRs i r (disabledState (s.rs i r))) := by
  intro j q hj hq hnormal
  have hroute := h.disable hboot j q hj hq hnormal
  change (s.reportData q.dataId).linkedRs = _ at hroute
  change ((s.setRd r.dataId rd).reportData q.dataId).linkedRs = _
  rw [setRd_reportData]
  split
  next heq =>
    rw [heq, hlink, Option.some.injEq, Prod.mk.injEq] at hroute
    obtain ⟨rfl, rfl⟩ := hroute
    have hdisabled : (s.setRs i r (disabledState (s.rs i r))).Enabled i r := hq
    rw [setRs_enabled, if_pos ⟨rfl, rfl⟩] at hdisabled
    exact absurd rfl hdisabled
  next => exact hroute

/-- `disconnect` for a report that is enabled. -/
theorem Sound.disconnect (h : Sound cfg timely reliable pressed base s)
    (hallowed : ∀ i, (s.subscriber i).id = some id → s.Enabled i r ∧
      ∀ q, q.dataId = r → q ≠ r → ¬ s.Enabled i q) :
    ∃ s', disconnect cfg s id r = some s' ∧ Sound cfg timely reliable pressed base s' := by
  rw [HidReports.disconnect]
  cases hget : getSubscriber cfg s id with
  | none => exact ⟨s, rfl, h⟩
  | some i =>
    have hid := id_of_getSubscriber hget
    obtain ⟨henabled, hboot⟩ := hallowed i hid
    obtain ⟨-, -, hrd, hr⟩ := h.wired.enabled i r henabled
    simp only [hr, not_true_eq_false, if_false, hrd, Option.bind_some]
    by_cases hlink : (s.reportData r.dataId).linkedRs = some (i, r)
    · have hcleared : Content cfg timely (pressed r.dataId) r.dataId
          { s.reportData r.dataId with linkedRs := none } := (h.contents r.dataId).congr rfl rfl
      obtain ⟨rd, hclear, hcontent, hlinked, hitems, hdone⟩ := clearReportData_spec hcleared
      rw [if_pos hlink, hclear, Option.map_some, Option.map_some]
      have hunlinked (d : ReportId) : ((s.setRd r.dataId rd).reportData d).linkedRs ≠ some (i, r) := by
        rw [setRd_reportData]
        split
        next =>
          rw [hlinked]
          simp
        next hne =>
          intro hl
          exact hne (h.wired.linked d i r hl).2.1.symm
      have hblank : ∀ u ≠ 0, held rd.items.item u = 0 := by
        rw [hitems]
        exact fun u hu => held_clearItems _ hu
      have hwired : Wired cfg (base ++ s.submitted.map (·.key)) (s.setRd r.dataId rd) :=
        h.wired.setRd (fun j q hl => by simp [hlinked] at hl) fun _ => hblank
      refine ⟨_, rfl, ⟨hwired.disable hid hunlinked, h.routed.unlink_disable hlink hboot,
        h.contents.setRd hcontent fun _ _ => rfl⟩, fun hr d => AwakeAt.setRs ?_ fun hl =>
          absurd hl (hunlinked d)⟩
      by_cases hd : d = r.dataId
      · apply AwakeAt.of_done
        rw [setRd_reportData, if_pos hd]
        exact hdone
      · exact (h.awake hr d).setRd hd
    · rw [if_neg hlink, Option.map_some]
      have hunlinked (d : ReportId) : (s.reportData d).linkedRs ≠ some (i, r) := fun hl =>
        hlink ((h.wired.linked d i r hl).2.1 ▸ hl)
      exact ⟨_, rfl, ⟨h.wired.disable hid hunlinked, h.routed.disable hboot, h.contents⟩,
        fun hr d => (h.awake hr d).setRs fun hl => absurd hl (hunlinked d)⟩

end SdkNrf.Desktop.HidReports
