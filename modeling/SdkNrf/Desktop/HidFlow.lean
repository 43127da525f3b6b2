import SdkNrf.Desktop.HidRouting

/-!
# Confirmations and subscriptions

A report that is confirmed makes room for the next one.
-/

namespace SdkNrf.Desktop.HidReports

open SdkNrf.Desktop.HidState

/-- The state is consistent while the reports of `base` and those submitted since are in flight. -/
structure Steady (cfg : Config) (timely : Prop) (pressed : ReportId → UInt16 → Nat)
    (base : List (Option Nat × ReportId)) (s : HidState) : Prop where
  wired : Wired cfg (base ++ s.submitted.map (·.key)) s
  routed : Routed s
  contents : Contents cfg timely pressed s

structure Sound (cfg : Config) (timely reliable : Prop) (pressed : ReportId → UInt16 → Nat)
    (base : List (Option Nat × ReportId)) (s : HidState) : Prop extends
    Steady cfg timely pressed base s where
  awake : reliable → ∀ d, AwakeAt s d

variable {cfg : Config} {timely reliable : Prop} {pressed pressed' : ReportId → UInt16 → Nat}
  {base flight : List (Option Nat × ReportId)} {s s' : HidState} {sent : List HidReportEvent}
  {d r : ReportId} {i id : Nat} {rd : ReportData}

theorem ReportId.dataId_dataId (r : ReportId) : r.dataId.dataId = r.dataId := by
  cases r <;> rfl

theorem ReportId.eq_or_dataId {r q : ReportId} (h : q.dataId = r.dataId) :
    q = r ∨ q = r.dataId ∨ r = q.dataId := by
  cases r <;> cases q <;> simp_all [ReportId.dataId]

theorem Config.Valid.mem_dataIds (hcfg : cfg.Valid) (hr : r ∈ cfg.reports) : r.dataId ∈ cfg.dataIds :=
  List.mem_filter.mpr ⟨hcfg.data r hr, decide_eq_true r.dataId_dataId⟩

theorem getReportData_eq (hd : d ∈ cfg.dataIds) (s : HidState) :
    getReportData cfg s d = some (s.reportData d) := if_pos hd

theorem getSubscriber_eq (h : Wired cfg flight s) (hid : (s.subscriber i).id = some id) :
    getSubscriber cfg s id = some i := by
  rw [getSubscriber]
  cases hfind : (List.range cfg.subscriberCount).find? fun i => (s.subscriber i).id = some id with
  | none =>
    rw [List.find?_eq_none] at hfind
    exact absurd (decide_eq_true hid) (hfind i (List.mem_range.mpr ((h.slots i).slot (by simp [hid]))))
  | some j =>
    have hj := List.find?_some hfind
    rw [h.distinct i j id hid (of_decide_eq_true hj)]

theorem id_of_getSubscriber (h : getSubscriber cfg s id = some i) : (s.subscriber i).id = some id := by
  rw [getSubscriber] at h
  simpa using List.find?_some h

theorem id_ne_of_getSubscriber (hw : Wired cfg flight s) (h : getSubscriber cfg s id = none) (i : Nat) :
    (s.subscriber i).id ≠ some id := by
  intro hid
  rw [getSubscriber_eq hw hid] at h
  contradiction

theorem Steady.reportSend (hcfg : cfg.Valid) (h : Steady cfg timely pressed base s) (d : ReportId)
    (checkState sendAlways : Bool) :
    ∃ s' sent, reportSend s d checkState sendAlways = some (s', !sent.isEmpty) ∧ Sends s s' sent ∧
      Steady cfg timely pressed base s' ∧ AwakeAt s' d ∧ ∀ d', AwakeAt s d' → AwakeAt s' d' := by
  obtain ⟨s', sent, hrun, hs, hw, hc, hawake, hdata⟩ :=
    reportSend_spec hcfg h.wired h.contents d checkState sendAlways
  refine ⟨s', sent, hrun, hs, ⟨?_, h.routed.sends hs, hc⟩, hawake, fun d' hd' => ?_⟩
  · rw [hs.submitted, List.map_append, ← List.append_assoc]
    exact hw
  · by_cases hd : d' = d
    · exact hd ▸ hawake
    · exact hd'.sends h.wired hs (hdata d' hd)

theorem Steady.reportSend_sound (hcfg : cfg.Valid) (h : Steady cfg timely pressed base s) {d : ReportId}
    (hothers : reliable → ∀ d' ≠ d, AwakeAt s d') (checkState sendAlways : Bool) :
    ∃ s' b, HidReports.reportSend s d checkState sendAlways = some (s', b) ∧
      Sound cfg timely reliable pressed base s' := by
  obtain ⟨s', sent, hrun, -, hsteady, hawake, hkeep⟩ := h.reportSend hcfg d checkState sendAlways
  refine ⟨s', _, hrun, hsteady, fun hr d' => ?_⟩
  by_cases hd : d' = d
  · exact hd ▸ hawake
  · exact hkeep d' (hothers hr d' hd)

/-- The reports of the candidates wait for nothing afterwards: what one of them sends blocks the
subscriber, or is of the only one. -/
theorem Steady.pickFrom (hcfg : cfg.Valid) (h : Steady cfg timely pressed base s)
    (hid : (s.subscriber i).id = some id) (l : List ReportId)
    (hothers : reliable → ∀ d, (∀ r ∈ l, (s.reportData d).linkedRs ≠ some (i, r)) → AwakeAt s d)
    (hlast : reliable → (s.subscriber i).reportMax ≤ (s.subscriber i).reportCnt + 1 ∨ l.length ≤ 1) :
    ∃ s', pickFrom i l s = some s' ∧ Sound cfg timely reliable pressed base s' := by
  induction l generalizing s with
  | nil => exact ⟨s, rfl, h, fun hr d => hothers hr d (by simp)⟩
  | cons next rest ih =>
    have hshort (hr : reliable) : (s.subscriber i).reportMax ≤ (s.subscriber i).reportCnt + 1 ∨
        rest.length ≤ 1 := by
      have := hlast hr
      rw [List.length_cons] at this
      omega
    rw [HidReports.pickFrom]
    by_cases hstate : (s.rs i next).state = .DISCONNECTED
    · rw [if_pos hstate]
      refine ih h hid (fun hr d hd => hothers hr d (List.forall_mem_cons.mpr ⟨fun hl => ?_, hd⟩)) hshort
      exact (h.wired.linked d i next hl).2.2 hstate
    · obtain ⟨-, -, hrd, -⟩ := h.wired.enabled i next hstate
      rw [if_neg hstate, hrd, Option.bind_some]
      by_cases hready : (s.reportData next.dataId).linkedRs = some (i, next) ∧ (s.rs i next).cnt = 0
      · have hselected := (h.wired.linked _ i next hready.1).1
        obtain ⟨s₁, sent, hrun, hs, hsteady, hawake, hkeep⟩ := h.reportSend hcfg next.dataId false false
        have hother (hr : reliable) (d : ReportId)
          (hd : ∀ r ∈ rest, (s.reportData d).linkedRs ≠ some (i, r)) :
            AwakeAt s₁ d := by
          by_cases hl : (s.reportData d).linkedRs = some (i, next)
          · obtain ⟨-, rfl, -⟩ := h.wired.linked d i next hl
            exact hawake
          · exact hkeep d (hothers hr d (List.forall_mem_cons.mpr ⟨hl, hd⟩))
        rw [if_pos hready, if_pos hselected, hrun, Option.bind_some]
        cases sent with
        | nil =>
          have hid₁ := (hs.subscriber i).1.trans hid
          apply ih hsteady hid₁
          · intro hr d hd
            exact hother hr d fun r hmem => hs.linkedRs d ▸ hd r hmem
          · intro hr
            rw [(hs.subscriber i).2, hs.reportCnt i hselected]
            exact hshort hr
        | cons event sent =>
          have hcounted := hs.reportCnt i hselected
          rw [List.length_cons] at hcounted
          refine ⟨s₁, rfl, hsteady, fun hr d => ?_⟩
          by_cases hd : ∀ r ∈ rest, (s.reportData d).linkedRs ≠ some (i, r)
          · exact hother hr d hd
          · -- The subscriber can take no more reports.
            obtain ⟨r, hmem, hl⟩ : ∃ r ∈ rest, (s.reportData d).linkedRs = some (i, r) := by simpa using hd
            have hlen : 0 < rest.length := List.length_pos_of_mem hmem
            have hmax := hlast hr
            rw [List.length_cons] at hmax
            intro j q hl'
            rw [hs.linkedRs, hl, Option.some.injEq, Prod.mk.injEq] at hl'
            obtain ⟨rfl, rfl⟩ := hl'
            rw [(hs.subscriber i).2]
            omega
      · rw [if_neg hready]
        refine ih h hid (fun hr d hd => ?_) hshort
        by_cases hl : (s.reportData d).linkedRs = some (i, next)
        · intro j q hl'
          rw [hl, Option.some.injEq, Prod.mk.injEq] at hl'
          obtain ⟨rfl, rfl⟩ := hl'
          obtain ⟨-, rfl, -⟩ := h.wired.linked d i next hl
          exact Or.inl (Nat.pos_of_ne_zero fun hcnt => hready ⟨hl, hcnt⟩)
        · exact hothers hr d (List.forall_mem_cons.mpr ⟨hl, hd⟩)

theorem Routed.setRd (h : Routed s) (hlinked : rd.linkedRs = (s.reportData d).linkedRs) :
    Routed (s.setRd d rd) := by
  intro i r hi hr hboot
  rw [setRd_reportData]
  split
  next heq =>
    subst heq
    exact hlinked.trans (h i r hi hr hboot)
  next => exact h i r hi hr hboot

theorem Contents.setRd (h : Contents cfg timely pressed s) (hrd : Content cfg timely (pressed' d) d rd)
    (hothers : ∀ d' ≠ d, pressed' d' = pressed d') : Contents cfg timely pressed' (s.setRd d rd) := by
  intro d'
  by_cases hd : d' = d
  · subst hd
    simpa using hrd
  · rw [setRd_reportData, if_neg hd, hothers d' hd]
    exact h d'

theorem Steady.setRd (h : Steady cfg timely pressed base s)
    (hlinked : rd.linkedRs = (s.reportData d).linkedRs)
    (hblank : rd.linkedRs = none → ∀ u ≠ 0, held rd.items.item u = 0)
    (hrd : Content cfg timely (pressed' d) d rd) (hothers : ∀ d' ≠ d, pressed' d' = pressed d') :
    Steady cfg timely pressed' base (s.setRd d rd) :=
  ⟨h.wired.setRd (fun i r hl => h.wired.linked d i r (hlinked ▸ hl)) hblank, h.routed.setRd hlinked,
    h.contents.setRd hrd hothers⟩

theorem AwakeAt.setRd {d' : ReportId} (h : AwakeAt s d') (hd : d' ≠ d) : AwakeAt (s.setRd d rd) d' :=
  h.mono (by simp [hd]) fun _ _ _ => ⟨le_rfl, le_rfl, rfl⟩

theorem AwakeAt.of_done {d' : ReportId} (h : (s.reportData d').Done) : AwakeAt s d' :=
  fun _ _ _ => Or.inr (Or.inr h)

def confirmed (rs : ReportState) : ReportState :=
  if rs.state = .DISCONNECTED then rs
  else { rs with cnt := rs.cnt - 1, state := if rs.cnt - 1 = 0 then .CONNECTED_IDLE else rs.state }

def HidState.confirm (s : HidState) (i : Nat) (r : ReportId) : HidState :=
  s.recount i r ((s.subscriber i).reportCnt - 1) (confirmed (s.rs i r))

theorem confirmed_disabled (rs : ReportState) :
    (confirmed rs).state = .DISCONNECTED ↔ rs.state = .DISCONNECTED := by
  rw [confirmed]
  split
  next => rfl
  next hstate =>
    simp only
    split <;> simp [hstate]

theorem confirm_enabled (s : HidState) (i j : Nat) (r q : ReportId) :
    (s.confirm i r).Enabled j q ↔ s.Enabled j q := by
  apply (recount_enabled ..).trans
  split
  next hjq =>
    obtain ⟨rfl, rfl⟩ := hjq
    exact not_congr (confirmed_disabled _)
  next => rfl

theorem Wired.confirm (h : Wired cfg flight s) (hid : (s.subscriber i).id = some id)
    (hflight : (some id, r) ∈ flight) : Wired cfg (flight.erase (some id, r)) (s.confirm i r) := by
  have hstate := (h.slots i).state r
  apply h.update hid
  case hx =>
    rw [hid] at hstate
    by_cases hdisabled : (s.rs i r).state = .DISCONNECTED
    · rw [confirmed, if_pos hdisabled]
      exact ⟨fun hnot => absurd hdisabled hnot, fun hnot => absurd hdisabled hnot, hstate.disabled,
        hstate.depth⟩
    · refine ⟨fun _ => ?_, fun _ => ?_, fun hnot => absurd ((confirmed_disabled _).mp hnot) hdisabled, ?_⟩ <;>
        simp only [confirmed, if_neg hdisabled]
      · exact hstate.enabled hdisabled
      · rw [List.count_erase_self, ← h.cnt hid hdisabled]
      · exact (Nat.sub_le _ _).trans hstate.depth
  case hcount => exact fun key hkey => List.count_erase_of_ne hkey
  case hcountP =>
    intro k hk
    rw [List.countP_erase]
    simp [hk.symm]
  case hn =>
    rw [List.countP_erase, h.reportCnt hid]
    simp [hflight]
  case hmax => exact (Nat.sub_le _ _).trans (h.slots i).reportMax.1
  case hknown => exact fun key hkey => Or.inl (List.mem_of_mem_erase hkey)
  case hlinked => exact fun hnot d hl => (h.linked d i r hl).2.2 ((confirmed_disabled _).mp hnot)

theorem confirm_of_disabled (h : ¬ s.Enabled i r) :
    s.confirm i r = s.setSubscriber i
        { s.subscriber i with reportCnt := (s.subscriber i).reportCnt - 1 } := by
  have hstate : (s.rs i r).state = .DISCONNECTED := of_not_not h
  rw [HidState.confirm, confirmed, if_pos hstate, HidState.recount]
  simp only [HidState.rs, Function.update_eq_self]

theorem Routed.confirm (h : Routed s) (i : Nat) (r : ReportId) : Routed (s.confirm i r) := by
  intro j q hj hq hboot
  rw [confirm_enabled] at hq hboot
  exact h j q hj hq hboot

theorem reportIssued_eq (h : Steady cfg timely pressed base s) (hid : (s.subscriber i).id = some id)
    (hmem : (some id, r) ∈ base) (error : Bool) : reportIssued cfg s id r error =
      if error = true ∧ s.Enabled i r ∧ (s.reportData r.dataId).linkedRs = some (i, r) then
        (clearReportData (s.reportData r.dataId)).map ((s.confirm i r).setRd r.dataId)
      else pickFrom i (candidates cfg r (decide ((s.subscriber i).reportCnt = (s.subscriber i).reportMax)))
        (s.confirm i r) := by
  have hmem' : (some id, r) ∈ base ++ s.submitted.map (·.key) := List.mem_append_left _ hmem
  obtain ⟨-, -, -, -, hr⟩ := h.wired.known _ hmem'
  have hcount : 0 < (s.subscriber i).reportCnt := by
    rw [h.wired.reportCnt hid]
    exact List.countP_pos_iff.mpr ⟨_, hmem', decide_eq_true rfl⟩
  have hmax := (h.wired.slots i).reportMax
  have hdec : ((s.subscriber i).reportCnt + 255) % 256 = (s.subscriber i).reportCnt - 1 := by omega
  simp only [HidReports.reportIssued, getSubscriber_eq h.wired hid, hr, not_true_eq_false, if_false, hdec,
    setReportCnt_rs]
  by_cases hstate : (s.rs i r).state = .DISCONNECTED
  · have hnot : ¬ s.Enabled i r := not_not_intro hstate
    rw [if_pos hstate, ← confirm_of_disabled hnot, if_neg fun hand => hnot hand.2.1]
  · have hcnt : (s.rs i r).cnt ≠ 0 := by
      rw [h.wired.cnt hid hstate]
      exact (List.count_pos_iff.mpr hmem').ne'
    have hconfirm : (s.setSubscriber i
      { s.subscriber i with reportCnt := (s.subscriber i).reportCnt - 1 }).setRs i r
        { s.rs i r with
          cnt := (s.rs i r).cnt - 1
          state := if (s.rs i r).cnt - 1 = 0 then .CONNECTED_IDLE else (s.rs i r).state } =
            s.confirm i r := by
      simp [HidState.confirm, confirmed, hstate, HidState.recount, HidState.setRs, HidState.setSubscriber]
    obtain ⟨-, -, hrd, -⟩ := h.wired.enabled i r hstate
    have hlinked : ((s.confirm i r).rs i r).linkedRd = some r.dataId := by
      rw [HidState.confirm, recount_rs, if_pos ⟨rfl, rfl⟩, confirmed, if_neg hstate]
      exact hrd
    have henabled : s.Enabled i r := hstate
    rw [if_neg hstate, if_neg hcnt, hconfirm, hlinked, Option.bind_some]
    cases error with
    | false => simp
    | true =>
      simp only [if_true, henabled, true_and]
      rfl

/-- `report_issued` for a report that is in flight. -/
theorem Sound.reportIssued (hcfg : cfg.Valid) (h : Sound cfg timely reliable pressed base s)
    (hflight : ∀ i, (s.subscriber i).id = some id → (some id, r) ∈ base) (error : Bool)
    (hreliable : ∀ i, (s.subscriber i).id = some id → reliable → error = true →
      (s.subscriber i).reportCnt < (s.subscriber i).reportMax) :
    ∃ s', reportIssued cfg s id r error = some s' ∧
      Sound cfg timely reliable pressed (base.erase (some id, r)) s' := by
  cases hget : getSubscriber cfg s id with
  | none =>
    have hnot : (some id, r) ∉ base := by
      intro hmem
      obtain ⟨i, id', hid, heq, -⟩ := h.wired.known _ (List.mem_append_left _ hmem)
      simp only [Option.some.injEq] at heq
      exact id_ne_of_getSubscriber h.wired hget i (heq ▸ hid)
    rw [List.erase_of_not_mem hnot, HidReports.reportIssued, hget]
    exact ⟨s, rfl, h⟩
  | some i =>
    have hid := id_of_getSubscriber hget
    have hmem := hflight i hid
    have hw := h.wired.confirm hid (List.mem_append_left (s.submitted.map (·.key)) hmem)
    rw [List.erase_append_left _ hmem] at hw
    have hsteady : Steady cfg timely pressed (base.erase (some id, r)) (s.confirm i r) :=
      ⟨hw, h.routed.confirm i r, h.contents⟩
    have hsubscriber (j : Nat) :=
      recount_subscriber s i j r ((s.subscriber i).reportCnt - 1) (confirmed (s.rs i r))
    -- Data that is linked to another report waits for the same as before, unless the subscriber is
    -- not blocked
    -- any more.
    have hkeep (hr : reliable) (d : ReportId) (hl : (s.reportData d).linkedRs ≠ some (i, r))
        (hfree : (∃ q, (s.reportData d).linkedRs = some (i, q)) →
          (s.subscriber i).reportCnt < (s.subscriber i).reportMax) : AwakeAt (s.confirm i r) d := by
      intro j q hl'
      change (s.reportData d).linkedRs = _ at hl'
      have hne : ¬ (j = i ∧ q = r) := by
        rintro ⟨rfl, rfl⟩
        exact hl hl'
      obtain ⟨-, -, hmax, hcnt⟩ := hsubscriber j
      rw [HidState.confirm, hmax, hcnt, recount_rs, if_neg hne]
      refine (h.awake hr d j q hl').imp_right (Or.imp_left fun hblocked => ?_)
      by_cases hji : j = i
      · subst hji
        have := hfree ⟨q, hl'⟩
        omega
      · rw [if_neg hji]
        exact hblocked
    rw [reportIssued_eq h.toSteady hid hmem]
    split
    next herror =>
      obtain ⟨herror, -, hlink⟩ := herror
      obtain ⟨rd, hclear, hcontent, hlinked, hitems, hempty, hdone⟩ :=
        clearReportData_spec (h.contents r.dataId)
      rw [hclear, Option.map_some]
      refine ⟨_, rfl, hsteady.setRd hlinked ?_ hcontent fun _ _ => rfl, fun hr d => ?_⟩
      · intro _ u hu
        rw [hitems]
        exact held_clearItems _ hu
      · by_cases hd : d = r.dataId
        · apply AwakeAt.of_done
          rw [setRd_reportData, if_pos hd]
          exact ⟨hempty, hdone⟩
        · refine (hkeep hr d (fun hl => ?_) fun _ => hreliable i hid hr herror).setRd hd
          obtain ⟨-, heq, -⟩ := h.wired.linked d i r hl
          exact hd heq.symm
    next =>
      apply hsteady.pickFrom hcfg ((hsubscriber i).1.trans hid)
      · intro hr d hd
        by_cases hblocked : (s.subscriber i).reportCnt = (s.subscriber i).reportMax
        · -- All reports are candidates.
          have hnone (q : ReportId) : (s.reportData d).linkedRs ≠ some (i, q) := by
            intro hl
            apply hd q _ hl
            obtain ⟨-, -, hq⟩ := h.wired.linked d i q hl
            have hmem := (h.wired.enabled i q hq).2.2.2
            rw [← List.take_append_drop (cfg.reports.idxOf r + 1) cfg.reports, List.mem_append] at hmem
            simpa [candidates, hblocked, or_comm] using hmem
          exact hkeep hr d (hnone r) fun hq => absurd hq.choose_spec (hnone _)
        · have hlt := lt_of_le_of_ne ((h.wired.slots i).reportMax).1 hblocked
          exact hkeep hr d (hd r (by simp [candidates, hblocked])) fun _ => hlt
      · intro _
        obtain ⟨-, -, hmax, hcnt⟩ := hsubscriber i
        rw [HidState.confirm, hmax, hcnt, if_pos rfl]
        by_cases hblocked : (s.subscriber i).reportCnt = (s.subscriber i).reportMax
        · left
          omega
        · right
          simp [candidates, hblocked]

end SdkNrf.Desktop.HidReports
