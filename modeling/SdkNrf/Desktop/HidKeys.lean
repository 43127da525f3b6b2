import SdkNrf.Desktop.HidSelection

/-!
# Key events and axes

A key event changes the items of its report when that is connected and no event waits in front of
it, else it is queued.
-/

namespace SdkNrf.Desktop.HidReports

open SdkNrf.Desktop.HidState

variable {cfg : Config} {timely reliable : Prop}

section Queue

variable {pressed pressed' : UInt16 → Nat} {d : ReportId} {rd : ReportData} {nodes : EventNodes}
  {eventq : Eventq} {items : Items} {now : UInt32}

theorem eventqIsFull_spec (h : eventq.Queues nodes) :
    eventqIsFull cfg.queueSize eventq = decide (cfg.queueSize ≤ nodes.length) := by
  rw [eventqIsFull, h.len]

theorem makeRoomFrom_spec (fuel : Nat) (h : eventq.Queues nodes) (hroom : nodes.length ≤ cfg.queueSize)
    {k : Nat} (hk : k ≤ nodes.length) (hfuel : nodes.length < k + fuel) :
    ∃ eventq' p, makeRoomFrom cfg fuel eventq (NodeList.addrAt nodes k) = some eventq' ∧
      eventq'.Queues (nodes.drop p) := by
  induction fuel generalizing eventq k with
  | zero => omega
  | succ fuel ih =>
    by_cases hlt : k < nodes.length
    · have hplace := NodeList.Holds.at_place (p := 0) h.toHolds (Nat.zero_le k) hlt
      obtain ⟨eventq', p, hrun, hp, hqueues, -⟩ :=
        eventqCleanup_spec cfg.expiration (nodes[k].2.timestamp + cfg.expiration) h
      rw [NodeList.addrAt_of_lt hlt, makeRoomFrom, hplace.1, Option.bind_some, hrun, Option.bind_some,
        eventqIsFull_spec hqueues]
      by_cases hfull : cfg.queueSize ≤ (nodes.drop p).length
      · -- The queue was full before, so nothing is removed.
        rw [List.length_drop] at hfull
        obtain rfl | hzero : p = 0 ∨ nodes.length = 0 := by omega
        · rw [List.drop_zero] at hqueues
          have hplace' := NodeList.Holds.at_place (p := 0) hqueues.toHolds (Nat.zero_le k) hlt
          rw [List.drop_zero, if_pos (decide_eq_true (by omega)), hplace'.2, Option.bind_some]
          exact ih hqueues hlt (by omega)
        · omega
      · rw [if_neg (by simpa using hfull)]
        exact ⟨eventq', p, rfl, hqueues⟩
    · rw [NodeList.addrAt, List.getElem?_eq_none (by omega), Option.map_none, makeRoomFrom]
      exact ⟨eventq, 0, rfl, h⟩

theorem Kept.forget (h : Kept cfg timely pressed d items nodes) (hnot : ¬ timely) :
    Kept cfg timely pressed' d items nodes :=
  { h with owned := fun ht => absurd ht hnot }

theorem presses_drop (nodes : EventNodes) (p : Nat) (u : UInt16) :
    presses (nodes.drop p) u ≤ presses nodes u :=
  (List.drop_sublist p nodes).countP_le

theorem Content.append (h : Content cfg timely pressed d rd) {usageId : UInt16} {value : Int16}
    (hkey : IsKey cfg d ⟨usageId, value⟩) (hcounts : Counts pressed pressed' ⟨usageId, value⟩)
    (hroom : (eventsOf rd.eventq).length < cfg.queueSize)
    (hfit : value = 1 → held rd.items.item usageId + presses (eventsOf rd.eventq) usageId < 2 ^ 15 - 1)
    (hidEvent : Option UInt32) (halloc : timely → hidEvent.isSome)
    (hfresh : ∀ a ∈ hidEvent, a ≠ 0 ∧ ∀ node ∈ eventsOf rd.eventq, node.1 ≠ a) :
    Content cfg timely pressed' d { rd with
        eventq := eventqAppend rd.eventq hidEvent usageId value now } := by
  cases hidEvent with
  | none => exact ⟨h.queues, h.kept.forget fun ht => by simpa using halloc ht⟩
  | some a =>
    obtain ⟨hnonnull, hother⟩ := hfresh a rfl
    exact .of_queues (eventqAppend_spec h.queues hnonnull hother hkey.2.2 now)
      (h.kept.append hkey hcounts hroom hfit)

structure Queueable (cfg : Config) (timely : Prop) (rd : ReportData) (usageId : UInt16) (value : Int16)
    (hidEvent : Option UInt32) : Prop where
  fit : value = 1 → held rd.items.item usageId + presses (eventsOf rd.eventq) usageId < 2 ^ 15 - 1
  fresh : ∀ a ∈ hidEvent, a ≠ 0 ∧ ∀ node ∈ eventsOf rd.eventq, node.1 ≠ a
  alloc : timely → hidEvent.isSome

theorem Queueable.mono {rd' : ReportData} {usageId : UInt16} {value : Int16} {hidEvent : Option UInt32}
    (h : Queueable cfg timely rd usageId value hidEvent)
    (hheld : held rd'.items.item usageId ≤ held rd.items.item usageId) (p : Nat)
    (hnodes : eventsOf rd'.eventq = (eventsOf rd.eventq).drop p) :
    Queueable cfg timely rd' usageId value hidEvent where
  fit := fun hv => by
    have hfit := h.fit hv
    have hle := presses_drop (eventsOf rd.eventq) p usageId
    rw [hnodes]
    omega
  fresh := fun a ha => by
    obtain ⟨hnonnull, hother⟩ := h.fresh a ha
    refine ⟨hnonnull, fun node hnode => hother node ?_⟩
    rw [hnodes] at hnode
    exact List.mem_of_mem_drop hnode
  alloc := h.alloc

/-- `enqueue`. -/
theorem enqueue_spec (hcfg : cfg.Valid) (h : Content cfg timely pressed d rd) {usageId : UInt16}
    {value : Int16}
    (hkey : IsKey cfg d ⟨usageId, value⟩) (hcounts : Counts pressed pressed' ⟨usageId, value⟩)
    (connected : Bool)
    (hblank : connected = false → ∀ u ≠ 0, held rd.items.item u = 0)
    (hfresh : timely → Fresh cfg now (eventsOf rd.eventq) ∨ ∀ u ≠ 0, held rd.items.item u = 0)
    {hidEvent : Option UInt32} (hqueueable : Queueable cfg timely rd usageId value hidEvent) :
    ∃ rd', enqueue cfg rd usageId value connected now hidEvent = some rd' ∧
      Content cfg timely pressed' d rd' ∧ rd'.linkedRs = rd.linkedRs ∧
      ∀ u ≠ 0, held rd'.items.item u = 0 ∨ held rd'.items.item u = held rd.items.item u := by
  obtain ⟨eventq, p, hrun, hqueues, hkept, -⟩ := cleanup_spec h.queues h.kept now hfresh
  have hmade : ∃ eventq' q, (if eventqIsFull cfg.queueSize eventq ∧ connected = false then
      makeRoomFrom cfg (fuelOf eventq.root) eventq eventq.root.root.head? else some eventq) = some eventq' ∧
      eventq'.Queues ((eventsOf rd.eventq).drop q) ∧
      Kept cfg timely pressed d rd.items ((eventsOf rd.eventq).drop q) := by
    split
    next hfull =>
      have hhead : eventq.root.root.head? = NodeList.addrAt ((eventsOf rd.eventq).drop p) 0 :=
        head_eq (p := 0) hqueues.toHolds
      have hfuel : ((eventsOf rd.eventq).drop p).length < 0 + fuelOf eventq.root := by
        rw [fuelOf_eq hqueues.toHolds]
        omega
      obtain ⟨eventq', q, hmake, hqueues'⟩ :=
        makeRoomFrom_spec (fuelOf eventq.root) hqueues hkept.room (Nat.zero_le _) hfuel
      have hkept' := hkept.drop q fun _ => Or.inr (hblank hfull.2)
      rw [List.drop_drop] at hqueues' hkept'
      exact ⟨eventq', p + q, by rw [hhead, hmake], hqueues', hkept'⟩
    next => exact ⟨eventq, p, rfl, hqueues, hkept⟩
  obtain ⟨eventq', q, hmade, hqueues', hkept'⟩ := hmade
  have hcontent : Content cfg timely pressed d { rd with eventq := eventq' } := .of_queues hqueues' hkept'
  rw [enqueue, hrun, Option.bind_some, hmade, Option.bind_some, eventqIsFull_spec hqueues']
  by_cases hfull : cfg.queueSize ≤ ((eventsOf rd.eventq).drop q).length
  · obtain ⟨rd', hclear, hcontent', hlinked, hitems, hempty⟩ := clearReportData_spec hcontent
    have hq : Queueable cfg timely rd' usageId value hidEvent := by
      apply hqueueable.mono (p := (eventsOf rd.eventq).length)
      · rw [hitems, held_clearItems _ hkey.1]
        exact held_nonneg h.kept.ordered.toValid hkey.1
      · rw [hempty.1, List.drop_length]
    have hroom : (eventsOf rd'.eventq).length < cfg.queueSize := by
      rw [hempty.1]
      exact hcfg.queueSize
    rw [if_pos (decide_eq_true hfull), hclear, Option.map_some]
    refine ⟨_, rfl, hcontent'.append hkey hcounts hroom hq.fit hidEvent hq.alloc hq.fresh, hlinked,
      fun u hu => Or.inl ?_⟩
    rw [hitems]
    exact held_clearItems _ hu
  · have hevents := eventsOf_eq hqueues'
    have hq : Queueable cfg timely { rd with eventq := eventq' } usageId value hidEvent :=
      hqueueable.mono le_rfl q hevents
    rw [if_neg (by simpa using hfull), Option.map_some]
    refine ⟨_, rfl, hcontent.append hkey hcounts ?_ hq.fit hidEvent hq.alloc hq.fresh, rfl,
      fun u _ => Or.inr rfl⟩
    rw [hevents]
    exact not_le.mp hfull

end Queue

variable {pressed pressed' : ReportId → UInt16 → Nat} {base : List (Option Nat × ReportId)} {s : HidState}
  {now : UInt32} {hidEvent : Option UInt32}

theorem unlinked_of_isConnected {flight : List (Option Nat × ReportId)} (h : Wired cfg flight s)
    {d : ReportId}
    (hconnected : isConnected s (s.reportData d) = false) : (s.reportData d).linkedRs = none := by
  by_contra hl
  obtain ⟨⟨i, r⟩, hl⟩ := Option.ne_none_iff_exists'.mp hl
  have henabled := (h.linked d i r hl).2.2
  rw [isConnected, hl] at hconnected
  simp only [ne_eq, decide_not, Bool.not_eq_eq_eq_not, Bool.not_false, decide_eq_true_eq] at hconnected
  exact henabled hconnected

theorem AwakeAt.update {d : ReportId} {rd : ReportData} (h : AwakeAt s d)
    (hlinked : rd.linkedRs = (s.reportData d).linkedRs)
    (hdone : rd.linkedRs ≠ none → (s.reportData d).Done → rd.Done) : AwakeAt (s.setRd d rd) d := by
  intro i r hl
  rw [setRd_reportData, if_pos rfl] at hl ⊢
  refine (h i r (hlinked ▸ hl)).imp_right (Or.imp_right (hdone ?_))
  rw [hl]
  simp

theorem AwakeAt.set {rd : ReportData} {d : ReportId} (h : ∀ d, AwakeAt s d)
    (hd : AwakeAt (s.setRd d rd) d) (d' : ReportId) : AwakeAt (s.setRd d rd) d' := by
  by_cases hd' : d' = d
  · exact hd' ▸ hd
  · exact (h d').setRd hd'

theorem Sound.updateKey (hcfg : cfg.Valid) (h : Sound cfg timely reliable pressed base s) {map : HidKeymap}
    (hmap : map ∈ cfg.hidKeymap) (hused : map.usageId ≠ 0) {value : Int16} (hvalue : value = 1 ∨ value = -1)
    (hcounts : Counts (pressed map.reportId) (pressed' map.reportId) ⟨map.usageId, value⟩)
    (hothers : ∀ d ≠ map.reportId, pressed' d = pressed d)
    (hqueueable : Queueable cfg timely (s.reportData map.reportId) map.usageId value hidEvent)
    (hfresh : timely → (s.reportData map.reportId).linkedRs = none ∨
      Fresh cfg now (eventsOf (s.reportData map.reportId).eventq)) :
    ∃ s', updateKey cfg s map value now hidEvent = some s' ∧ Sound cfg timely reliable pressed' base s' := by
  have hkey : IsKey cfg map.reportId ⟨map.usageId, value⟩ := ⟨hused, ⟨map, hmap, rfl, rfl⟩, hvalue⟩
  have hcontent := h.contents map.reportId
  have hblank := h.wired.blank map.reportId
  rw [HidReports.updateKey, getReportData_eq (hcfg.keymap map hmap), Option.bind_some]
  generalize hrd : s.reportData map.reportId = rd at *
  have hdirect : (if isConnected s rd then eventqIsEmpty rd.eventq else some false) =
      some (isConnected s rd && (eventsOf rd.eventq).isEmpty) := by
    rw [eventqIsEmpty_spec hcontent.queues]
    cases isConnected s rd <;> rfl
  rw [hdirect, Option.bind_some]
  by_cases hnow : (isConnected s rd && (eventsOf rd.eventq).isEmpty) = true
  · obtain ⟨hconnected, hempty⟩ := Bool.and_eq_true_iff.mp hnow
    rw [List.isEmpty_iff] at hempty
    have hkept := hcontent.kept
    have hqueues := hcontent.queues
    rw [hempty] at hkept hqueues
    have hlinked : rd.linkedRs ≠ none := by
      intro hnone
      rw [isConnected, hnone] at hconnected
      contradiction
    obtain ⟨items, updated, hset, hkept'⟩ := hkept.set hkey hcounts fun hv => by
      have hfit := hqueueable.fit hv
      change held rd.items.item map.usageId < _
      omega
    change keyValueSet rd.items map.usageId value = _ at hset
    rw [if_pos hnow, hset, Option.bind_some]
    cases updated with
    | true =>
      have hsteady : Steady cfg timely pressed' base
          (s.setRd map.reportId { rd with items := items, updateNeeded := true }) :=
        h.setRd (by rw [hrd]) (fun hnone => absurd hnone hlinked) (.of_queues hqueues hkept') hothers
      obtain ⟨s', b, hsend, hsound⟩ :=
        hsteady.reportSend_sound hcfg (fun hr d hd => (h.awake hr d).setRd hd) false true
      exact ⟨s', by simp only [if_true, hsend, Option.map_some], hsound⟩
    | false =>
      refine ⟨_, rfl, ?_, fun hr => AwakeAt.set (h.awake hr)
        ((h.awake hr _).update (by rw [hrd]) fun _ => ?_)⟩
      · exact h.setRd (by rw [hrd]) (fun hnone => absurd hnone hlinked) (.of_queues hqueues hkept') hothers
      · rw [hrd]
        exact id
  · have hunlinked (hnot : isConnected s rd = false) : rd.linkedRs = none := by
      rw [← hrd] at hnot ⊢
      exact unlinked_of_isConnected h.wired hnot
    obtain ⟨rd', hrun, hcontent', hlinked, hheld⟩ :=
      enqueue_spec hcfg hcontent hkey hcounts (isConnected s rd)
      (fun hnot => hblank (hunlinked hnot)) (fun ht => (hfresh ht).symm.imp_right hblank) hqueueable
    rw [if_neg hnow, hrun, Option.map_some]
    refine ⟨_, rfl, h.setRd (by rw [hrd, hlinked]) (fun hnone u hu => ?_) hcontent' hothers,
      fun hr => AwakeAt.set (h.awake hr) ((h.awake hr _).update (by rw [hrd, hlinked]) fun hnone hdone => ?_)⟩
    · rcases hheld u hu with hzero | hsame
      · exact hzero
      · rw [hsame]
        exact hblank (hlinked ▸ hnone) u hu
    · -- Events are queued behind others only.
      exfalso
      rw [hrd] at hdone
      rw [hdone.1, List.isEmpty_nil, Bool.and_true, Bool.not_eq_true, ← hrd] at hnow
      rw [hlinked, ← hrd] at hnone
      exact hnone (unlinked_of_isConnected h.wired hnow)

theorem Sound.handleAxes (hcfg : cfg.Valid) (h : Sound cfg timely reliable pressed base s)
    (move : AxisData → AxisData) :
    ∃ s', handleAxes cfg s move = some s' ∧ Sound cfg timely reliable pressed base s' := by
  rw [HidReports.handleAxes]
  split
  · have hsteady : Steady cfg timely pressed base (s.setRd .MOUSE { s.reportData .MOUSE with
        axes := move (s.reportData .MOUSE).axes
        updateNeeded := true }) :=
      h.setRd rfl (h.wired.blank .MOUSE) ((h.contents .MOUSE).congr rfl rfl) fun _ _ => rfl
    obtain ⟨s', b, hsend, hsound⟩ :=
      hsteady.reportSend_sound hcfg (fun hr d hd => (h.awake hr d).setRd hd) true true
    exact ⟨s', by rw [hsend, Option.map_some], hsound⟩
  · exact ⟨s, rfl, h⟩

end SdkNrf.Desktop.HidReports
