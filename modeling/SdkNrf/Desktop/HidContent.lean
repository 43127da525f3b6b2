import SdkNrf.Desktop.HidQueues

/-!
# Reports from the items

Every operation on the data of a report succeeds on items and events of the keymap, and keeps them so.
-/

namespace SdkNrf.Desktop.HidReports

open SdkNrf.Desktop.HidState

/-- What `init` and the build check: a report is about data that exists, the keymap is about report data, and
the buttons of the mouse fit into a byte. -/
structure Config.Valid (cfg : Config) : Prop where
  distinct : cfg.reports.Nodup
  data : ∀ r ∈ cfg.reports, r.dataId ∈ cfg.reports
  keymap : ∀ map ∈ cfg.hidKeymap, map.reportId ∈ cfg.dataIds
  buttons : ∀ map ∈ cfg.hidKeymap, map.reportId = .MOUSE → map.usageId ≤ 8
  queueSize : 0 < cfg.queueSize

structure Content (cfg : Config) (timely : Prop) (pressed : UInt16 → Nat) (d : ReportId) (rd : ReportData) :
    Prop where
  queues : rd.eventq.Queues (eventsOf rd.eventq)
  kept : Kept cfg timely pressed d rd.items (eventsOf rd.eventq)

def ReportData.Done (rd : ReportData) : Prop := eventsOf rd.eventq = [] ∧ rd.updateNeeded = false

section Content

variable {cfg : Config} {timely : Prop} {pressed pressed' : UInt16 → Nat} {d : ReportId}
  {rd rd' : ReportData} {nodes : EventNodes}

theorem Content.of_queues (hqueues : rd.eventq.Queues nodes)
    (hkept : Kept cfg timely pressed d rd.items nodes) : Content cfg timely pressed d rd := by
  obtain rfl := eventsOf_eq hqueues
  exact ⟨hqueues, hkept⟩

theorem Content.congr (h : Content cfg timely pressed d rd) (hitems : rd'.items = rd.items)
    (heventq : rd'.eventq = rd.eventq) : Content cfg timely pressed d rd' := by
  have hqueues : rd'.eventq.Queues (eventsOf rd.eventq) := by
    rw [heventq]
    exact h.queues
  apply Content.of_queues hqueues
  rw [hitems]
  exact h.kept

theorem clearReportData_spec (h : Content cfg timely pressed d rd) :
    ∃ rd', clearReportData rd = some rd' ∧ Content cfg timely pressed d rd' ∧ rd'.linkedRs = rd.linkedRs ∧
      rd'.items = clearItems rd.items ∧ rd'.Done := by
  obtain ⟨eventq, hreset, hempty⟩ := eventqReset_spec h.queues
  refine ⟨{ rd with axes := ⟨0, 0, 0⟩, items := clearItems rd.items, eventq := eventq, updateNeeded := false },
    ?_, .of_queues hempty h.kept.clear, rfl, rfl, eventsOf_eq hempty, rfl⟩
  rw [clearReportData, hreset, Option.map_some]

def Fresh (cfg : Config) (now : UInt32) (nodes : EventNodes) : Prop :=
  ∀ node ∈ nodes.head?, now - node.2.timestamp < cfg.expiration

instance (cfg : Config) (now : UInt32) (nodes : EventNodes) : Decidable (Fresh cfg now nodes) :=
  inferInstanceAs (Decidable (∀ node ∈ nodes.head?, now - node.2.timestamp < cfg.expiration))

theorem cleanup_spec (hqueues : rd.eventq.Queues nodes) (hkept : Kept cfg timely pressed d rd.items nodes)
    (now : UInt32) (htimely : timely → Fresh cfg now nodes ∨ ∀ u ≠ 0, held rd.items.item u = 0) :
    ∃ eventq p, eventqCleanup cfg.expiration rd.eventq now = some eventq ∧ eventq.Queues (nodes.drop p) ∧
      Kept cfg timely pressed d rd.items (nodes.drop p) ∧ p ≤ nodes.length := by
  obtain ⟨eventq, p, hrun, hp, hqueues', hold, -⟩ := eventqCleanup_spec cfg.expiration now hqueues
  refine ⟨eventq, p, hrun, hqueues', hkept.drop p fun ht => ?_, hp⟩
  rcases htimely ht with hfresh | hblank
  · left
    by_contra hpos
    have h0 : 0 < nodes.length := by omega
    have hlt := hfresh nodes[0] (by rw [List.head?_eq_getElem?, List.getElem?_eq_getElem h0]; rfl)
    exact absurd (hold 0 h0 (by omega)) (UInt32.not_le.mpr hlt)
  · exact Or.inr hblank

theorem updateFrom_spec (fuel : Nat) (hqueues : rd.eventq.Queues nodes)
    (hkept : Kept cfg timely pressed d rd.items nodes) (hfuel : nodes.length < fuel) :
    ∃ rd' updateNeeded, updateFrom fuel rd = some (rd', updateNeeded) ∧ Content cfg timely pressed d rd' ∧
      rd'.linkedRs = rd.linkedRs ∧ (updateNeeded = false → eventsOf rd'.eventq = []) := by
  induction fuel generalizing rd nodes with
  | zero => omega
  | succ fuel ih =>
    rw [updateFrom, eventqIsEmpty_spec hqueues, Option.bind_some]
    cases nodes with
    | nil => exact ⟨rd, false, rfl, .of_queues hqueues hkept, rfl, fun _ => eventsOf_eq hqueues⟩
    | cons node nodes =>
      obtain ⟨root, hpop, hholds, -⟩ := hqueues.toHolds.pop
      obtain ⟨root₁, hremove, hfree⟩ := Option.bind_eq_some_iff.mp hpop
      obtain ⟨items, accepted, hset, hkept'⟩ := hkept.pop
      have hmemory : root₁.memory node.1 = some node.2 := by
        rw [NodeList.removeFirst] at hremove
        obtain ⟨event, hevent, rfl⟩ := Option.map_eq_some_iff.mp hremove
        exact hqueues.live node (List.mem_cons_self ..)
      have hget : eventqGet rd.eventq = some (some node.1, ⟨root₁, rd.eventq.len - 1⟩) := by
        rw [eventqGet, hqueues.root, List.map_cons]
        simp only [hremove, Option.map_some]
      have hqueues' := Queues.tail hqueues hholds
      rw [hget]
      simp only [List.isEmpty_cons, Bool.false_eq_true, if_false, Option.bind_some, hmemory, hset, hfree]
      cases accepted with
      | true => exact ⟨_, true, rfl, .of_queues hqueues' hkept', rfl, fun h => by contradiction⟩
      | false =>
        simp only [Bool.false_eq_true, if_false]
        rw [List.length_cons] at hfuel
        let rd₁ : ReportData := { rd with
          items := items
          eventq := ⟨root, rd.eventq.len - 1⟩
          updateNeeded := rd.updateNeeded || false }
        exact @ih rd₁ nodes hqueues' hkept' (by omega)

theorem updateReport_spec (h : Content cfg timely pressed d rd) :
    ∃ rd' updateNeeded, updateReport rd = some (rd', updateNeeded) ∧ Content cfg timely pressed d rd' ∧
      rd'.linkedRs = rd.linkedRs ∧ (updateNeeded = false → rd'.Done) := by
  obtain ⟨rd', updateNeeded, hrun, hcontent, hlinked, hempty⟩ :=
    updateFrom_spec (fuelOf rd.eventq.root) h.queues h.kept (by
      rw [fuelOf_eq h.queues.toHolds]
      omega)
  refine ⟨rd', updateNeeded || rd'.updateNeeded, by rw [updateReport, hrun, Option.map_some],
    hcontent, hlinked, ?_⟩
  intro hnot
  obtain ⟨hnone, hdone⟩ := Bool.or_eq_false_iff.mp hnot
  exact ⟨hempty hnone, hdone⟩

theorem keysFrom_isSome {item : List Item} (h : ∀ it ∈ item, it.usageId ≠ 0 → 0 < it.value.toInt)
    (modifierBm : UInt8) (keys : List UInt8) : (keysFrom item modifierBm keys).isSome := by
  induction item generalizing modifierBm keys with
  | nil => rfl
  | cons it item ih =>
    rw [List.forall_mem_cons] at h
    rw [keysFrom]
    by_cases hstop : KEYBOARD_REPORT_KEY_COUNT_MAX ≤ keys.length ∨ it.usageId = 0
    · rw [if_pos hstop]
      rfl
    · have hpos : ¬ it.value ≤ 0 := by
        have := h.1 fun h0 => hstop (Or.inr h0)
        rw [Int16.le_iff_toInt_le]
        simpa using this
      rw [if_neg hstop, if_neg hpos]
      split
      · exact ih h.2 _ _
      · split <;> exact ih h.2 _ _

theorem held_pos (h : rd.items.Valid) {it : Item} (hit : it ∈ rd.items.item) (hused : it.usageId ≠ 0) :
    held rd.items.item it.usageId ≠ 0 := by
  obtain ⟨l₁, l₂, hitem⟩ := List.append_of_mem hit
  obtain ⟨hleft, hright⟩ := h.mem_unique hitem hused
  have hpos := h.positive it hit hused
  rw [hitem, held_append_cons, if_pos rfl, held_of_absent hleft, held_of_absent hright]
  omega

theorem buttonsFit (hcfg : cfg.Valid) (h : Content cfg timely pressed .MOUSE rd) :
    ButtonsFit rd.items.item := by
  intro it hit hused
  obtain ⟨map, hmap, hreport, husage⟩ :=
    h.kept.mapped it.usageId hused (held_pos h.kept.ordered.toValid hit hused)
  refine ⟨husage ▸ hcfg.buttons map hmap hreport, ?_⟩
  have := h.kept.ordered.positive it hit hused
  rw [Int16.lt_iff_toInt_lt]
  simpa using this

theorem sendData_spec (hcfg : cfg.Valid) {r : ReportId} (h : Content cfg timely pressed r.dataId rd) :
    ∃ rd' data, sendData rd r = some (rd', data) ∧ rd'.items = rd.items ∧ rd'.eventq = rd.eventq ∧
      rd'.linkedRs = rd.linkedRs := by
  have hkeyboard (r : ReportId) : ∃ rd' data, sendReportKeyboard r rd = some (rd', data) ∧
      rd'.items = rd.items ∧ rd'.eventq = rd.eventq ∧ rd'.linkedRs = rd.linkedRs := by
    have hpositive : ∀ it ∈ rd.items.item.reverse, it.usageId ≠ 0 → 0 < it.value.toInt := fun it hit =>
      h.kept.ordered.positive it (List.mem_reverse.mp hit)
    obtain ⟨⟨modifierBm, keys⟩, hkeys⟩ := Option.isSome_iff_exists.mp (keysFrom_isSome hpositive 0 [])
    rw [sendReportKeyboard, hkeys]
    exact ⟨_, _, rfl, rfl, rfl, rfl⟩
  have hctrl (r : ReportId) : ∃ rd' data, sendReportCtrl r rd = some (rd', data) ∧
      rd'.items = rd.items ∧ rd'.eventq = rd.eventq ∧ rd'.linkedRs = rd.linkedRs := by
    have hpos := h.kept.ordered.pos
    have hfits := h.kept.ordered.fits
    have hne : rd.items.item ≠ [] := List.ne_nil_of_length_pos (by omega)
    rw [sendReportCtrl, List.getLast?_eq_some_getLast hne]
    exact ⟨_, _, rfl, rfl, rfl, rfl⟩
  have hmouse (hd : r.dataId = .MOUSE) (send : HidState.ReportData → HidState.ReportData × Report) :
      ∃ rd' data, sendMouse send rd = some (rd', data) ∧
        rd'.items = rd.items ∧ rd'.eventq = rd.eventq ∧ rd'.linkedRs = rd.linkedRs := by
    rw [sendMouse, if_pos (buttonsFit hcfg (hd ▸ h))]
    exact ⟨_, _, rfl, rfl, rfl, rfl⟩
  cases r with
  | KEYBOARD_KEYS => exact hkeyboard _
  | MOUSE => exact hmouse rfl _
  | SYSTEM_CTRL => exact hctrl _
  | CONSUMER_CTRL => exact hctrl _
  | BOOT_KEYBOARD => exact hkeyboard _
  | BOOT_MOUSE => exact hmouse rfl _

theorem sendFrom_spec (hcfg : cfg.Valid) {r : ReportId} (subscriber : Option Nat)
    {depth : Nat} (hdepth : depth ≤ 2) (reportMax : Nat) (sendAlways : Bool) (fuel : Nat)
    (h : Content cfg timely pressed r.dataId rd) (cnt reportCnt : Nat) (hfuel : depth < cnt + fuel)
    (hpositive : 0 < fuel) :
    ∃ rd' reports, sendFrom subscriber (some r) depth reportMax sendAlways fuel rd cnt reportCnt =
        some (rd', reports) ∧ Content cfg timely pressed r.dataId rd' ∧ rd'.linkedRs = rd.linkedRs ∧
      (∀ event ∈ reports, event.subscriber = subscriber ∧ event.reportId = r) ∧
      cnt + reports.length ≤ max cnt depth ∧ reportCnt + reports.length ≤ max reportCnt reportMax ∧
      (depth ≤ cnt + reports.length ∨ reportMax ≤ reportCnt + reports.length ∨ rd'.Done) := by
  induction fuel generalizing rd cnt reportCnt with
  | zero => omega
  | succ fuel ih =>
    rw [sendFrom]
    by_cases hmore : cnt < depth ∧ reportCnt < reportMax
    · obtain ⟨rd₁, updateNeeded, hupdate, hcontent₁, hlinked₁, hdone⟩ := updateReport_spec h
      rw [if_pos hmore, hupdate, Option.bind_some]
      by_cases hsend : (updateNeeded || sendAlways) = true
      · obtain ⟨rd₂, data, hdata, hitems, heventq, hlinked₂⟩ := sendData_spec hcfg hcontent₁
        have hsent : sendReport subscriber rd₁ (some r) = some (rd₂, ⟨subscriber, r, data⟩) := by
          rw [sendReport, Option.bind_some, hdata, Option.map_some]
        obtain ⟨rd', reports, hrun, hcontent, hlinked, hevents, hcnt, hreportCnt, hend⟩ :=
          ih (hcontent₁.congr hitems heventq) (cnt + 1) (reportCnt + 1) (by omega) (by omega)
        refine ⟨rd', ⟨subscriber, r, data⟩ :: reports, ?_, hcontent, ?_, ?_, ?_, ?_, ?_⟩
        · simp only [if_pos hsend, hsent, Option.bind_some, if_pos (by omega : cnt < 255), hrun,
            Option.map_some]
        · rw [hlinked, hlinked₂, hlinked₁]
        · exact List.forall_mem_cons.mpr ⟨⟨rfl, rfl⟩, hevents⟩
        · rw [List.length_cons]
          omega
        · rw [List.length_cons]
          omega
        · rw [List.length_cons, ← Nat.add_assoc, Nat.add_right_comm, ← Nat.add_assoc reportCnt,
            Nat.add_right_comm reportCnt]
          exact hend
      · rw [Bool.or_eq_true, not_or, Bool.not_eq_true] at hsend
        refine ⟨rd₁, [], by simp [hsend], hcontent₁, hlinked₁, by simp, by simp, by simp, ?_⟩
        exact Or.inr (Or.inr (hdone hsend.1))
    · refine ⟨rd, [], by rw [if_neg hmore], h, rfl, by simp, by simp, by simp, ?_⟩
      rw [List.length_nil]
      omega

end Content

end SdkNrf.Desktop.HidReports
