import SdkNrf.Desktop.HidKeys
import SdkNrf.Framework.Contract

/-!
# Reports and keys over whole runs

The module runs together with what its environment knows: the reports that no subscriber has
confirmed yet, and the keys that are pressed.
-/

namespace SdkNrf.Desktop.HidReports

open SdkNrf.Desktop.HidState

structure System where
  hid : HidState
  unconfirmed : List (Option Nat × ReportId)
  pressed : List UInt16

def itemCountMax : ReportId → Nat
  | .MOUSE => 8
  | .KEYBOARD_KEYS => 6
  | _ => 1

def ITEM_COUNT : Nat := 8

/-- The state after `init`. -/
def HidState.init : HidState where
  reportData := fun d =>
    ⟨emptyTable (itemCountMax d) ITEM_COUNT, ⟨⟨[], fun _ => none⟩, 0⟩, ⟨0, 0, 0⟩, false, none⟩
  subscriber := fun _ => clearedSubscriber
  selected := none
  submitted := []

def System.init : System := ⟨.init, [], []⟩

section Code

variable (cfg : Config)

def keyOf (keyId : UInt16) : Option HidKeymap := (hidKeymapGet cfg keyId).filter (·.usageId ≠ 0)

def pressedOf (keys : List UInt16) (d : ReportId) (u : UInt16) : Nat :=
  keys.countP fun keyId => (keyOf cfg keyId).map (fun map => (map.reportId, map.usageId)) = some (d, u)

def remaining : Event → List (Option Nat × ReportId) → List (Option Nat × ReportId)
  | .reportSent id r _, unconfirmed => unconfirmed.erase (some id, r)
  | .blePeer id false, unconfirmed => unconfirmed.filter (·.1 ≠ some id)
  | .usbHid id false, unconfirmed => unconfirmed.filter (·.1 ≠ some id)
  | _, unconfirmed => unconfirmed

def pressedAfter : Event → List UInt16 → List UInt16
  | .button keyId true _, pressed => keyId :: pressed
  | .button keyId false _, pressed => pressed.erase keyId
  | _, pressed => pressed

def System.step (t : System) (e : UInt32 × Event) : Option System :=
  (eventHandler cfg t.hid e.1 e.2).map fun hid =>
    ⟨{ hid with submitted := [] }, remaining e.2 t.unconfirmed ++ hid.submitted.map (·.key),
      pressedAfter e.2 t.pressed⟩

def Timely (now : UInt32) (rd : ReportData) : Prop :=
  rd.linkedRs = none ∨ Fresh cfg now (eventsOf rd.eventq)

/-- What the environment keeps to. A timely one sends reports before events expire and has memory for events;
in any other the values of the items are taken to be small enough. In a reliable one no report fails while its
subscriber can take no more: other reports wait for its confirmation then, and `report_issued` picks none. -/
def Allowed (timely reliable : Prop) (t : System) : UInt32 × Event → Prop
  | (_, .motion _ _) => True
  | (_, .wheel _) => True
  | (now, .button keyId pressed hidEvent) =>
    (pressed = true ↔ keyId ∉ t.pressed) ∧
    ∀ map, keyOf cfg keyId = some map →
      (∀ a ∈ hidEvent, a ≠ 0 ∧ ∀ node ∈ eventsOf (t.hid.reportData map.reportId).eventq, node.1 ≠ a) ∧
      (timely → hidEvent.isSome ∧ Timely cfg now (t.hid.reportData map.reportId)) ∧
      (¬ timely → held (t.hid.reportData map.reportId).items.item map.usageId +
        presses (eventsOf (t.hid.reportData map.reportId).eventq) map.usageId < 2 ^ 15 - 1)
  | (_, .reportSent id r error) => ∀ i, (t.hid.subscriber i).id = some id → (some id, r) ∈ t.unconfirmed ∧
    (reliable → error = true → (t.hid.subscriber i).reportCnt < (t.hid.subscriber i).reportMax)
  | (now, .subscription id r true) => ∀ i, (t.hid.subscriber i).id = some id →
    r ∈ cfg.reports ∧ (some id, r) ∉ t.unconfirmed ∧ (r ≠ r.dataId → ¬ t.hid.Enabled i r.dataId) ∧
      (timely → Timely cfg now (t.hid.reportData r.dataId))
  | (_, .subscription id r false) => ∀ i, (t.hid.subscriber i).id = some id →
    t.hid.Enabled i r ∧ ∀ q, q.dataId = r → q ≠ r → ¬ t.hid.Enabled i q
  | (_, .blePeer id true) => ∀ i, (t.hid.subscriber i).id ≠ some id
  | (_, .usbHid id true) => ∀ i, (t.hid.subscriber i).id ≠ some id
  | (_, .blePeer _ false) => ∀ i, Exclusive t.hid i
  | (_, .usbHid _ false) => ∀ i, Exclusive t.hid i

end Code

variable {cfg : Config} {timely reliable : Prop} {t t' : System}

theorem keyOf_spec {keyId : UInt16} {map : HidKeymap} (h : keyOf cfg keyId = some map) :
    hidKeymapGet cfg keyId = some map ∧ map ∈ cfg.hidKeymap ∧ map.keyId = keyId ∧ map.usageId ≠ 0 := by
  rw [keyOf, Option.filter_eq_some_iff] at h
  obtain ⟨hget, hused⟩ := h
  obtain ⟨i, hsearch, hmap⟩ := Option.bind_eq_some_iff.mp hget
  obtain ⟨map', hmap', hkey⟩ := searchBetween_sound hsearch
  obtain rfl : map' = map := Option.some.inj (hmap'.symm.trans hmap)
  exact ⟨hget, List.mem_of_getElem? hmap, UInt16.toNat_inj.mp hkey, of_decide_eq_true hused⟩

theorem pressedOf_le {keys : List UInt16} (hkeys : keys.Nodup) (d : ReportId) (u : UInt16) :
    pressedOf cfg keys d u ≤ cfg.hidKeymap.length := by
  rw [pressedOf, List.countP_eq_length_filter]
  have hsub : (keys.filter fun keyId => (keyOf cfg keyId).map (fun map => (map.reportId, map.usageId)) =
      some (d, u)) ⊆ cfg.hidKeymap.map (·.keyId) := by
    intro keyId hmem
    have hmap := of_decide_eq_true (List.mem_filter.mp hmem).2
    obtain ⟨map, hkey, -⟩ := Option.map_eq_some_iff.mp hmap
    obtain ⟨-, hin, heq, -⟩ := keyOf_spec hkey
    exact List.mem_map.mpr ⟨map, hin, heq⟩
  have hle := (List.subperm_of_subset (hkeys.filter _) hsub).length_le
  rwa [List.length_map] at hle

theorem presses_le {d : ReportId} {nodes : EventNodes} (h : ∀ node ∈ nodes, IsKey cfg d node.2.item)
    (u : UInt16) : (presses nodes u : Int) ≤ usageSum nodes u + nodes.length := by
  induction nodes with
  | nil => simp [presses]
  | cons node nodes ih =>
    obtain ⟨hkey, h⟩ := List.forall_mem_cons.mp h
    have hrest := ih h
    have hpress := presses_cons node nodes u
    have hsum := usageSum_cons node nodes u
    have hlen : (node :: nodes).length = nodes.length + 1 := List.length_cons
    by_cases husage : node.2.item.usageId = u
    · rcases hkey.2.2 with hv | hv <;> simp [husage, hv] at hpress hsum <;> omega
    · simp [husage] at hpress hsum
      omega

theorem Kept.fit {pressed : UInt16 → Nat} {d : ReportId} {items : Items} {nodes : EventNodes}
    (h : Kept cfg timely pressed d items nodes) (htimely : timely) {u : UInt16} (hu : u ≠ 0) :
    held items.item u + presses nodes u ≤ pressed u + cfg.queueSize := by
  have howned := (h.owned htimely u hu).1
  have hpresses := presses_le h.queued u
  have hroom := h.room
  omega

theorem pressedOf_cons (keyId : UInt16) (keys : List UInt16) (d : ReportId) (u : UInt16) :
    pressedOf cfg (keyId :: keys) d u = pressedOf cfg keys d u +
      if (keyOf cfg keyId).map (fun map => (map.reportId, map.usageId)) = some (d, u) then 1 else 0 := by
  simp [pressedOf, List.countP_cons]

theorem pressedOf_erase {keyId : UInt16} {keys : List UInt16} (hmem : keyId ∈ keys) (d : ReportId)
    (u : UInt16) : pressedOf cfg keys d u = pressedOf cfg (keys.erase keyId) d u +
      if (keyOf cfg keyId).map (fun map => (map.reportId, map.usageId)) = some (d, u) then 1 else 0 := by
  rw [← pressedOf_cons, pressedOf, pressedOf]
  exact (List.perm_cons_erase hmem).countP_eq _

theorem pressedAfter_button {keyId : UInt16} {pressed : Bool} {hidEvent : Option UInt32} {keys : List UInt16}
    (halternate : pressed = true ↔ keyId ∉ keys) (d : ReportId) (u : UInt16) :
    (pressedOf cfg (pressedAfter (.button keyId pressed hidEvent) keys) d u : Int) = pressedOf cfg keys d u +
      if (keyOf cfg keyId).map (fun map => (map.reportId, map.usageId)) = some (d, u) then
        (if pressed then (1 : Int16) else -1).toInt else 0 := by
  cases pressed with
  | true =>
    rw [pressedAfter, pressedOf_cons]
    split <;> simp
  | false =>
    have hmem : keyId ∈ keys := by simpa using halternate
    rw [pressedAfter, pressedOf_erase hmem]
    split <;> simp

theorem pressedAfter_nodup {e : UInt32 × Event} {keys : List UInt16} (hkeys : keys.Nodup)
    (halternate : ∀ keyId pressed hidEvent, e.2 = .button keyId pressed hidEvent →
      (pressed = true ↔ keyId ∉ keys)) : (pressedAfter e.2 keys).Nodup := by
  cases he : e.2 with
  | button keyId pressed hidEvent =>
    cases pressed with
    | true => exact List.nodup_cons.mpr ⟨(halternate _ _ _ he).mp rfl, hkeys⟩
    | false => exact hkeys.erase keyId
  | _ => exact hkeys

structure System.Consistent (cfg : Config) (timely reliable : Prop) (t : System) : Prop where
  sound : Sound cfg timely reliable (pressedOf cfg t.pressed) t.unconfirmed t.hid
  submitted : t.hid.submitted = []
  distinct : t.pressed.Nodup

theorem System.Consistent.init (cfg : Config) (timely reliable : Prop) :
    System.init.Consistent cfg timely reliable where
  submitted := rfl
  distinct := List.nodup_nil
  sound := by
    have hempty (d : ReportId) (u : UInt16) (hu : u ≠ 0) :
        held (System.init.hid.reportData d).items.item u = 0 :=
      held_clearItems (emptyTable (itemCountMax d) ITEM_COUNT) hu
    apply Sound.of_unlinked ⟨fun _ => .cleared, ?distinct, ?known⟩ ⟨?selected, ?usbFirst, ?someSelected⟩
    case distinct => exact fun i j id hid => (nomatch hid)
    case known => exact fun key hkey => absurd hkey List.not_mem_nil
    case selected => exact fun i hi => (nomatch hi)
    case usbFirst => exact fun i j hi => (nomatch hi)
    case someSelected => exact fun i id hid => (nomatch hid)
    · exact fun d => ⟨rfl, hempty d⟩
    · exact fun i r hi => (nomatch hi)
    · intro d
      refine .of_queues queues_nil ⟨?_, ?_, by simp, ?_, ?_, Nat.zero_le _⟩
      · apply emptyTable_ordered
        · cases d <;> decide
        · cases d <;> decide
        · cases d <;> decide
      · exact fun u hu hne => absurd (hempty d u hu) hne
      · exact fun u hu => by simp [hempty d u hu, presses]
      · exact fun _ u hu => by simp [hempty d u hu]

theorem Sound.handleButtonEvent (hcfg : cfg.Valid)
    (hsmall : timely → cfg.hidKeymap.length + cfg.queueSize < 2 ^ 15 - 1)
    (h : t.Consistent cfg timely reliable)
    {now : UInt32} {keyId : UInt16} {pressed : Bool} {hidEvent : Option UInt32}
    (hallowed : Allowed cfg timely reliable t (now, .button keyId pressed hidEvent)) :
    ∃ s', handleButtonEvent cfg t.hid keyId pressed now hidEvent = some s' ∧
      Sound cfg timely reliable (pressedOf cfg
        (pressedAfter (.button keyId pressed hidEvent) t.pressed)) t.unconfirmed
        s' := by
  obtain ⟨halternate, hallowed⟩ := hallowed
  have hafter := @pressedAfter_button cfg _ _ hidEvent _ halternate
  rw [HidReports.handleButtonEvent]
  cases hkey : keyOf cfg keyId with
  | none =>
    have hsame : pressedOf cfg (pressedAfter (.button keyId pressed hidEvent) t.pressed) =
        pressedOf cfg t.pressed := by
      funext d u
      have := hafter d u
      simpa [hkey] using this
    rw [hsame]
    cases hget : hidKeymapGet cfg keyId with
    | none => exact ⟨t.hid, rfl, h.sound⟩
    | some map =>
      have hzero : map.usageId = 0 := by simpa [keyOf, hget] using hkey
      exact ⟨t.hid, by simp only [hzero, if_true], h.sound⟩
  | some map =>
    obtain ⟨hget, hmap, -, hused⟩ := keyOf_spec hkey
    obtain ⟨hfresh, htimely, hfit⟩ := hallowed map hkey
    simp only [hget, hused, if_false]
    apply h.sound.updateKey hcfg hmap hused
    case hvalue => cases pressed <;> simp
    case hcounts =>
      intro u
      rw [hafter map.reportId u, hkey]
      simp
    case hothers =>
      intro d hd
      funext u
      have := hafter d u
      rw [hkey] at this
      simpa [Ne.symm hd] using this
    case hqueueable =>
      refine ⟨fun _ => ?_, hfresh, fun ht => (htimely ht).1⟩
      by_cases ht : timely
      · have hle := (h.sound.contents map.reportId).kept.fit ht hused
        have hkeys := @pressedOf_le cfg _ h.distinct map.reportId map.usageId
        have := hsmall ht
        omega
      · exact hfit ht
    case hfresh => exact fun ht => (htimely ht).2

theorem System.Consistent.step (hcfg : cfg.Valid)
    (hsmall : timely → cfg.hidKeymap.length + cfg.queueSize < 2 ^ 15 - 1)
    (h : t.Consistent cfg timely reliable)
    (e : UInt32 × Event) (hallowed : Allowed cfg timely reliable t e) :
    ∃ t', t.step cfg e = some t' ∧ t'.Consistent cfg timely reliable := by
  have hhandled : ∃ s', eventHandler cfg t.hid e.1 e.2 = some s' ∧
      Sound cfg timely reliable (pressedOf cfg (pressedAfter e.2 t.pressed))
        (remaining e.2 t.unconfirmed) s' := by
    obtain ⟨now, e⟩ := e
    cases e with
    | motion dx dy => exact h.sound.handleAxes hcfg fun axes =>
        { axes with x := toSigned 16 (axes.x + dx), y := toSigned 16 (axes.y + dy) }
    | wheel wheel => exact h.sound.handleAxes hcfg fun axes =>
        { axes with wheel := toSigned 16 (axes.wheel + wheel) }
    | button keyId pressed hidEvent => exact Sound.handleButtonEvent hcfg hsmall h hallowed
    | reportSent id r error =>
      exact h.sound.reportIssued hcfg (fun i hid => (hallowed i hid).1) error fun i hid => (hallowed i hid).2
    | subscription id r enabled =>
      cases enabled with
      | true =>
        apply h.sound.connect hcfg h.submitted
        · intro i hid
          obtain ⟨hr, hnone, hboot, -⟩ := hallowed i hid
          exact ⟨hr, hnone, hboot⟩
        · intro i hid
          exact (hallowed i hid).2.2.2
      | false => exact h.sound.disconnect hallowed
    | blePeer id connected =>
      cases connected with
      | true => exact h.sound.connectSubscriber hcfg hallowed false (by omega)
      | false => exact h.sound.disconnectSubscriber hcfg h.submitted hallowed
    | usbHid id enabled =>
      cases enabled with
      | true =>
        rw [eventHandler]
        split
        · exact ⟨t.hid, rfl, h.sound⟩
        · exact h.sound.connectSubscriber hcfg hallowed true (by omega)
      | false => exact h.sound.disconnectSubscriber hcfg h.submitted hallowed
  obtain ⟨s', hrun, hsound⟩ := hhandled
  refine ⟨_, by rw [System.step, hrun, Option.map_some], ?_, rfl, ?_⟩
  · refine ⟨⟨?_, hsound.routed, hsound.contents⟩, hsound.awake⟩
    simpa using { hsound.wired with }
  · apply pressedAfter_nodup h.distinct
    intro keyId pressed hidEvent heq
    obtain ⟨now, e⟩ := e
    obtain rfl : e = _ := heq
    exact hallowed.1

theorem System.Consistent.reaches (hcfg : cfg.Valid)
    (hsmall : timely → cfg.hidKeymap.length + cfg.queueSize < 2 ^ 15 - 1)
    (ht : Reaches (System.step cfg) (Allowed cfg timely reliable) System.init t) :
    t.Consistent cfg timely reliable :=
  ht.invariant (.init cfg timely reliable) fun _ e h => h.step hcfg hsmall e

def desk : Config :=
  ⟨2, [.MOUSE, .KEYBOARD_KEYS, .BOOT_KEYBOARD], [⟨1, 4, .KEYBOARD_KEYS⟩, ⟨2, 1, .MOUSE⟩], 500, 12⟩

theorem desk_valid : desk.Valid where
  distinct := by decide
  data := by decide
  keymap := by decide
  buttons := by decide
  queueSize := by decide

theorem desk_reaches (timely reliable : Prop) :
    ∃ t, Reaches (System.step desk) (Allowed desk timely reliable) System.init t ∧
      t.pressed = [1] ∧ t.unconfirmed = [(some 7, .KEYBOARD_KEYS), (some 7, .KEYBOARD_KEYS)] := by
  refine ⟨_, .next (.next (.next .start (0, .blePeer 7 true) ?_ rfl)
    (10, .subscription 7 .KEYBOARD_KEYS true) ?_ rfl) (20, .button 1 true (some 64)) ?_ rfl, rfl, rfl⟩
  · exact fun i h => nomatch h
  · intro i _
    exact ⟨by decide, by decide, fun h => absurd rfl h, fun _ => Or.inl rfl⟩
  · refine ⟨by decide, fun map hmap => ?_⟩
    obtain rfl := Option.some.inj (hmap.symm.trans (rfl : keyOf desk 1 = some ⟨1, 4, .KEYBOARD_KEYS⟩))
    refine ⟨?_, ?_, ?_⟩
    · rintro a ⟨⟩
      exact ⟨by decide, fun node hnode => absurd hnode List.not_mem_nil⟩
    · exact fun _ => ⟨rfl, Or.inr fun node hnode => nomatch hnode⟩
    · intro _
      decide

end SdkNrf.Desktop.HidReports
