import SdkNrf.Desktop.HidSubscribers

/-!
# Subscribers that come and go

A subscriber gets a free slot.
-/

namespace SdkNrf.Desktop.HidReports

open SdkNrf.Desktop.HidState

variable {cfg : Config} {timely reliable : Prop} {pressed : ReportId → UInt16 → Nat}
  {base flight : List (Option Nat × ReportId)} {s s' : HidState} {d r : ReportId} {i j id : Nat}
  {rd : ReportData}

def Exclusive (s : HidState) (i : Nat) : Prop :=
  ∀ r, s.Enabled i r → r ≠ r.dataId → ¬ s.Enabled i r.dataId

theorem Exclusive.eq (h : Exclusive s i) {q : ReportId} (hq : s.Enabled i q) (hr : s.Enabled i r)
    (hdata : q.dataId = r.dataId) : q = r := by
  rcases ReportId.eq_or_dataId hdata with heq | heq | heq
  · exact heq
  · by_contra hne
    exact h r hr (heq ▸ Ne.symm hne) (heq ▸ hq)
  · by_contra hne
    exact h q hq (heq ▸ hne) (heq ▸ hr)

def newSubscriber (id : Nat) (isUsb : Bool) (reportMax : Nat) : Subscriber :=
  ⟨some id, isUsb, reportMax, 0, fun _ => clearedState⟩

section Slots

variable {f : Nat → Subscriber} {selected : Option Nat} {isUsb : Bool} {reportMax : Nat} {sub : Subscriber}

theorem Slots.join (h : Slots cfg flight f) (hfree : (f i).id = none) (hi : i < cfg.subscriberCount)
    (hnew : ∀ j, (f j).id ≠ some id) (isUsb : Bool) (hmax : 0 < reportMax ∧ reportMax ≤ 255) :
    Slots cfg flight (Function.update f i (newSubscriber id isUsb reportMax)) := by
  refine ⟨fun j => ?_, fun j k jd hj hk => ?_, fun key hkey => ?_⟩
  · by_cases hji : j = i
    · subst hji
      rw [Function.update_self]
      refine ⟨fun _ => hi, fun hnone => (nomatch hnone), fun _ => .cleared _, fun _ => ?_,
        Nat.zero_le _, hmax.2, fun _ => hmax.1⟩
      symm
      rw [newSubscriber, List.countP_eq_zero]
      intro key hkey heq
      obtain ⟨k, kd, hk, hkd, -⟩ := h.known key hkey
      exact hnew k (hk.trans (hkd.symm.trans (of_decide_eq_true heq)))
    · rw [Function.update_of_ne hji]
      exact h.slots j
  · rw [Function.update_apply] at hj hk
    split at hj <;> split at hk
    next hji hki => exact hji.trans hki.symm
    next => exact absurd (hk.trans hj.symm) (hnew k)
    next => exact absurd (hj.trans hk.symm) (hnew j)
    next => exact h.distinct j k jd hj hk
  · obtain ⟨k, kd, hk, heq⟩ := h.known key hkey
    have hki : k ≠ i := by
      rintro rfl
      rw [hfree] at hk
      contradiction
    exact ⟨k, kd, by rwa [Function.update_of_ne hki], heq⟩

/-- A slot is given back, and its reports are not in flight any more. -/
theorem Slots.leave (h : Slots cfg flight f) (hid : (f i).id = some id) :
    Slots cfg (flight.filter (·.1 ≠ some id)) (Function.update f i clearedSubscriber) := by
  refine ⟨fun j => ?_, fun j k jd hj hk => ?_, fun key hkey => ?_⟩
  · by_cases hji : j = i
    · rw [hji, Function.update_self]
      exact .cleared
    · have hne : (f j).id ≠ some id := fun heq => hji (h.distinct j i id heq hid)
      rw [Function.update_of_ne hji]
      apply (h.slots j).congr
      · rw [List.countP_filter]
        apply List.countP_congr
        intro key _
        simp only [Bool.and_eq_true, decide_eq_true_eq]
        exact ⟨fun hkey => hkey.1, fun hkey => ⟨hkey, hkey ▸ hne⟩⟩
      · exact fun q => List.count_filter (by simpa using hne)
  · rw [Function.update_apply] at hj hk
    split at hj
    · contradiction
    · split at hk
      · contradiction
      · exact h.distinct j k jd hj hk
  · obtain ⟨hmem, hne⟩ := List.mem_filter.mp hkey
    obtain ⟨k, kd, hk, heq, hr⟩ := h.known key hmem
    have hki : k ≠ i := by
      rintro rfl
      rw [heq, ← hk, hid] at hne
      simp at hne
    exact ⟨k, kd, by rwa [Function.update_of_ne hki], heq, hr⟩

/-- The new subscriber is selected when it is USB, or when there was none. -/
theorem Chosen.join (h : Chosen f selected) (hslots : Slots cfg flight f)
    (hfirst : isUsb = true ∨ selected = none) :
    Chosen (Function.update f i (newSubscriber id isUsb reportMax)) (some i) := by
  refine ⟨?_, ?_, fun _ _ _ => by simp⟩
  · rintro _ ⟨⟩
    simp [newSubscriber]
  · rintro j _ hj ⟨⟩
    rw [Function.update_self]
    rcases hfirst with hfirst | hnone
    · exact hfirst
    · rw [Function.update_apply] at hj
      split at hj
      · exact hj
      · cases hid : (f j).id with
        | none =>
          rw [(hslots.slots j).idle hid] at hj
          contradiction
        | some jd => exact absurd hnone (h.someSelected j jd hid)

theorem Chosen.others (h : Chosen f selected) (hi : selected ≠ some i) (hble : sub.isUsb = false)
    (hsome : sub.id ≠ none → selected ≠ none) : Chosen (Function.update f i sub) selected := by
  have hold (j : Nat) (hj : selected = some j) : Function.update f i sub j = f j := by
    apply Function.update_of_ne
    rintro rfl
    exact hi hj
  refine ⟨fun j hj => ?_, fun j k hj hk => ?_, fun j jd hj => ?_⟩
  · rw [hold j hj]
    exact h.selected j hj
  · rw [hold k hk]
    rw [Function.update_apply] at hj
    split at hj
    · simp [hble] at hj
    · exact h.usbFirst j k hj hk
  · rw [Function.update_apply] at hj
    split at hj
    · exact hsome (by simp [hj])
    · exact h.someSelected j jd hj

end Slots

theorem AwakeAt.of_unlinked (h : (s.reportData d).linkedRs = none) : AwakeAt s d := by
  intro i r hl
  rw [h] at hl
  contradiction

theorem Sound.of_unlinked (hslots : Slots cfg (base ++ s.submitted.map (·.key)) s.subscriber)
    (hchosen : Chosen s.subscriber s.selected)
    (hblank : ∀ d, (s.reportData d).linkedRs = none ∧ ∀ u ≠ 0, held (s.reportData d).items.item u = 0)
    (hrouted : ∀ i r, s.selected = some i → ¬ s.Enabled i r) (hc : Contents cfg timely pressed s) :
    Sound cfg timely reliable pressed base s where
  wired := ⟨hslots, hchosen, fun d i r hl => absurd hl (by simp [(hblank d).1]), fun d _ => (hblank d).2⟩
  routed := fun i r hi hr => absurd hr (hrouted i r hi)
  contents := hc
  awake := fun _ d => .of_unlinked (hblank d).1

theorem Sound.others {base' : List (Option Nat × ReportId)} (h : Sound cfg timely reliable pressed base s)
    (hi : s.selected ≠ some i) {sub : Subscriber} (hble : sub.isUsb = false)
    (hsome : sub.id ≠ none → s.selected ≠ none)
    (hslots : Slots cfg (base' ++ s.submitted.map (·.key)) (Function.update s.subscriber i sub)) :
    Sound cfg timely reliable pressed base' (s.setSubscriber i sub) := by
  have hrs (j : Nat) (hj : s.selected = some j) : (s.setSubscriber i sub).rs j = s.rs j := by
    have hji : j ≠ i := by
      rintro rfl
      exact hi hj
    funext q
    simp [HidState.rs, hji]
  refine ⟨⟨⟨hslots, h.wired.toChosen.others hi hble hsome, fun d j r hl => ?_, h.wired.blank⟩,
    fun j r hj hr hnormal => ?_, h.contents⟩,
    fun hreliable d => (h.awake hreliable d).mono rfl fun j r hl => ?_⟩
  · obtain ⟨hj, hd, hr⟩ := h.wired.linked d j r hl
    refine ⟨hj, hd, ?_⟩
    rwa [HidState.Enabled, hrs j hj]
  · rw [HidState.Enabled, hrs j hj] at hr hnormal
    exact h.routed j r hj hr hnormal
  · have hj := (h.wired.linked d j r hl).1
    have hji : j ≠ i := by
      rintro rfl
      exact hi hj
    simp [hrs j hj, hji]

theorem unlinkAll_spec (l : List ReportId) (h : Contents cfg timely pressed s) :
    ∃ data, unlinkAll l s = some { s with reportData := data } ∧
      Contents cfg timely pressed { s with reportData := data } ∧
      (∀ d ∈ l, (data d).linkedRs = none ∧ ∀ u ≠ 0, held (data d).items.item u = 0) ∧
      ∀ d ∉ l, data d = s.reportData d := by
  induction l generalizing s with
  | nil => exact ⟨s.reportData, rfl, h, by simp, fun _ _ => rfl⟩
  | cons d l ih =>
    have hd : Content cfg timely (pressed d) d { s.reportData d with linkedRs := none } := (h d).congr rfl rfl
    obtain ⟨rd, hclear, hcontent, hlinked, hitems, -⟩ := clearReportData_spec hd
    obtain ⟨data, hrun, hcontents, hcleared, hsame⟩ := ih (h.setRd hcontent fun _ _ => rfl)
    refine ⟨data, by rw [unlinkAll, hclear, Option.bind_some, hrun]; rfl, hcontents, ?_, ?_⟩
    · intro d' hd'
      by_cases hmem : d' ∈ l
      · exact hcleared d' hmem
      · obtain rfl : d' = d := (List.mem_cons.mp hd').resolve_right hmem
        rw [hsame d' hmem, setRd_reportData, if_pos rfl, hitems]
        exact ⟨hlinked, fun u hu => held_clearItems _ hu⟩
    · intro d' hd'
      rw [List.mem_cons, not_or] at hd'
      rw [hsame d' hd'.2, setRd_reportData, if_neg hd'.1]

/-- `connect_subscriber` for a subscriber that is not there yet. -/
theorem Sound.connectSubscriber (hcfg : cfg.Valid) (h : Sound cfg timely reliable pressed base s)
    (hnew : ∀ j, (s.subscriber j).id ≠ some id) (isUsb : Bool) {reportMax : Nat}
    (hmax : 0 < reportMax ∧ reportMax ≤ 255) :
    ∃ s', connectSubscriber cfg s id isUsb reportMax = some s' ∧
        Sound cfg timely reliable pressed base s' := by
  rw [HidReports.connectSubscriber]
  cases hfind : (List.range cfg.subscriberCount).find? fun i => (s.subscriber i).id = none with
  | none => exact ⟨s, rfl, h⟩
  | some i =>
    have hfree : (s.subscriber i).id = none := by simpa using List.find?_some hfind
    have hi : i < cfg.subscriberCount := List.mem_range.mp (List.mem_of_find?_eq_some hfind)
    have hslot : { s.subscriber i with
        id := some id
        isUsb := isUsb
        reportMax := reportMax
        reportCnt := 0 } = newSubscriber id isUsb reportMax := by
      rw [(h.wired.slots i).idle hfree]
      rfl
    have hjoin := h.wired.toSlots.join hfree hi hnew isUsb hmax
    have hcleared (r : ReportId) : (Function.update s.subscriber i
      (newSubscriber id isUsb reportMax) i).state r =
        clearedState := by
      rw [Function.update_self]
      rfl
    have hselect {data : ReportId → ReportData} (hfirst : isUsb = true ∨ s.selected = none)
        (hblank : ∀ d, (data d).linkedRs = none ∧ ∀ u ≠ 0, held (data d).items.item u = 0)
        (hcontents : Contents cfg timely pressed { s with reportData := data }) :
        Sound cfg timely reliable pressed base
          { s.setSubscriber i (newSubscriber id isUsb reportMax) with reportData := data, selected := some i } := by
      refine .of_unlinked hjoin (h.wired.toChosen.join h.wired.toSlots hfirst) hblank ?_ hcontents
      rintro _ r ⟨⟩ hr
      exact hr (congrArg ReportState.state (hcleared r))
    simp only [hslot, HidState.setSubscriber_selected]
    by_cases hunlink : s.selected.isSome ∧ isUsb = true
    · obtain ⟨data, hrun, hcontents, hcleared, hsame⟩ := unlinkAll_spec cfg.dataIds
        (s := s.setSubscriber i (newSubscriber id isUsb reportMax)) h.contents
      have hblank (d : ReportId) : (data d).linkedRs = none ∧ ∀ u ≠ 0, held (data d).items.item u = 0 := by
        by_cases hd : d ∈ cfg.dataIds
        · exact hcleared d hd
        · rw [hsame d hd]
          have hnone : (s.reportData d).linkedRs = none := by
            by_contra hl
            obtain ⟨⟨k, q⟩, hl⟩ := Option.ne_none_iff_exists'.mp hl
            obtain ⟨-, rfl, hq⟩ := h.wired.linked d k q hl
            exact hd (hcfg.mem_dataIds (h.wired.enabled k q hq).2.2.2)
          exact ⟨hnone, h.wired.blank d hnone⟩
      rw [if_pos hunlink, hrun, Option.map_some, Option.map_some, if_pos rfl]
      exact ⟨_, rfl, hselect (Or.inl hunlink.2) hblank hcontents⟩
    · rw [if_neg hunlink, Option.map_some, HidState.setSubscriber_selected]
      by_cases hsel : s.selected = none
      · have hblank (d : ReportId) : (s.reportData d).linkedRs = none ∧
            ∀ u ≠ 0, held (s.reportData d).items.item u = 0 := by
          have hnone : (s.reportData d).linkedRs = none := by
            by_contra hl
            obtain ⟨⟨k, q⟩, hl⟩ := Option.ne_none_iff_exists'.mp hl
            rw [(h.wired.linked d k q hl).1] at hsel
            contradiction
          exact ⟨hnone, h.wired.blank d hnone⟩
        rw [if_pos hsel]
        exact ⟨_, rfl, hselect (Or.inr hsel) hblank h.contents⟩
      · rw [if_neg hsel]
        have hble : isUsb = false := by
          by_contra husb
          exact hunlink ⟨Option.isSome_iff_ne_none.mpr hsel, by simpa using husb⟩
        exact ⟨_, rfl, h.others (fun hi => h.wired.selected i hi hfree) hble (fun _ => hsel) hjoin⟩

theorem unlinkFrom_spec (l : List ReportId) (hl : l.Nodup) (hexclusive : Exclusive s i)
    (hwires : ∀ r, s.Enabled i r → (s.rs i r).reportId = some r ∧ (s.rs i r).linkedRd = some r.dataId)
    (hidle : ∀ r, ¬ s.Enabled i r → (s.rs i r).linkedRd = none)
    (hlink : ∀ r ∈ l, s.Enabled i r → (s.reportData r.dataId).linkedRs = some (i, r))
    (hc : Contents cfg timely pressed s) :
    ∃ data, unlinkFrom i l s = some { s with reportData := data } ∧
      Contents cfg timely pressed { s with reportData := data } ∧
      (∀ r ∈ l, s.Enabled i r → (data r.dataId).linkedRs = none ∧
        ∀ u ≠ 0, held (data r.dataId).items.item u = 0) ∧
      ∀ d, (∀ r ∈ l, s.Enabled i r → r.dataId ≠ d) → data d = s.reportData d := by
  induction l generalizing s with
  | nil => exact ⟨s.reportData, rfl, hc, by simp, fun _ _ => rfl⟩
  | cons r l ih =>
    obtain ⟨hr, hl⟩ := List.nodup_cons.mp hl
    rw [unlinkFrom]
    by_cases henabled : s.Enabled i r
    · obtain ⟨hreport, hrd⟩ := hwires r henabled
      have hlinked := hlink r (List.mem_cons_self ..) henabled
      obtain ⟨rd, hclear, hcontent, -, hitems, -⟩ := clearReportData_spec (hc r.dataId)
      have hdistinct (q : ReportId) (hq : q ∈ l) (hqe : s.Enabled i q) : q.dataId ≠ r.dataId :=
        fun hdata => hr (hexclusive.eq hqe henabled hdata ▸ hq)
      obtain ⟨data, hrun, hcontents, hcleared, hsame⟩ :=
        ih (s := s.setRd r.dataId { rd with linkedRs := none })
        hl hexclusive hwires hidle
        (fun q hq hqe => by
          rw [setRd_reportData, if_neg (hdistinct q hq hqe)]
          exact hlink q (List.mem_cons_of_mem _ hq) hqe)
        (hc.setRd (hcontent.congr rfl rfl) fun _ _ => rfl)
      simp only [hrd, hreport, Option.isSome_some, hlinked, and_self, if_true, hclear, Option.bind_some, hrun]
      refine ⟨data, rfl, hcontents, ?_, ?_⟩
      · intro q hq hqe
        rcases List.mem_cons.mp hq with rfl | hq
        · rw [hsame q.dataId fun p hp hpe => hdistinct p hp hpe, setRd_reportData, if_pos rfl]
          refine ⟨rfl, fun u hu => ?_⟩
          simp only [hitems]
          exact held_clearItems _ hu
        · exact hcleared q hq hqe
      · intro d hd
        rw [List.forall_mem_cons] at hd
        rw [hsame d hd.2, setRd_reportData, if_neg (Ne.symm (hd.1 henabled))]
    · obtain ⟨data, hrun, hcontents, hcleared, hsame⟩ := ih hl hexclusive hwires hidle
        (fun q hq => hlink q (List.mem_cons_of_mem _ hq)) hc
      simp only [hidle r henabled, hrun]
      refine ⟨data, rfl, hcontents, ?_, ?_⟩
      · intro q hq hqe
        rcases List.mem_cons.mp hq with rfl | hq
        · exact absurd hqe henabled
        · exact hcleared q hq hqe
      · intro d hd
        exact hsame d fun q hq => hd q (List.mem_cons_of_mem _ hq)

theorem routeFrom_spec (hcfg : cfg.Valid) (l : List ReportId) (hexclusive : Exclusive s j)
    (hselected : s.selected = some j) (hw : Wired cfg (base ++ s.submitted.map (·.key)) s)
    (hc : Contents cfg timely pressed s) (hawake : ∀ d, AwakeAt s d) :
    ∃ s', routeFrom j l s = some s' ∧ Wired cfg (base ++ s'.submitted.map (·.key)) s' ∧
      Contents cfg timely pressed s' ∧ s'.selected = some j ∧ (∀ q, s'.Enabled j q ↔ s.Enabled j q) ∧
      (∀ q, s.Enabled j q → q ∈ l ∨ (s.reportData q.dataId).linkedRs = some (j, q) →
        (s'.reportData q.dataId).linkedRs = some (j, q)) ∧ ∀ d, AwakeAt s' d := by
  induction l generalizing s with
  | nil =>
    exact ⟨s, rfl, hw, hc, hselected, fun _ => Iff.rfl, fun q _ hq =>
      hq.resolve_left List.not_mem_nil, hawake⟩
  | cons r l ih =>
    rw [routeFrom]
    by_cases henabled : s.Enabled j r
    · obtain ⟨-, -, hrd, -⟩ := hw.enabled j r henabled
      have hw' : Wired cfg _ (s.setRd r.dataId { s.reportData r.dataId with linkedRs := some (j, r) }) :=
        hw.link hselected henabled rfl
      have hc' : Contents cfg timely pressed
          (s.setRd r.dataId { s.reportData r.dataId with linkedRs := some (j, r) }) :=
        hc.setRd ((hc r.dataId).congr rfl rfl) fun _ _ => rfl
      obtain ⟨s₁, sent, hrun, hsends, hw₁, hc₁, hawake₁, hdata⟩ :=
        reportSend_spec hcfg hw' hc' r.dataId true true
      have hawake' (d : ReportId) : AwakeAt s₁ d := by
        by_cases hd : d = r.dataId
        · exact hd ▸ hawake₁
        · exact ((hawake d).setRd hd).sends hw' hsends (hdata d hd)
      have henabled₁ (q : ReportId) : s₁.Enabled j q ↔ s.Enabled j q := hsends.enabled j q
      have hsubmitted : s₁.submitted = s.submitted ++ sent := hsends.submitted
      rw [List.append_assoc, ← List.map_append, ← hsubmitted] at hw₁
      obtain ⟨s', hrun', hwired, hcontents, hsel, hsame, hroutes, hend⟩ := ih (s := s₁)
        (fun q hq hne => by
          rw [henabled₁] at hq ⊢
          exact hexclusive q hq hne)
        (hsends.selected.trans hselected) hw₁ hc₁ hawake'
      simp only [hrd, hrun, Option.bind_some, hrun']
      refine ⟨s', rfl, hwired, hcontents, hsel, fun q => (hsame q).trans (henabled₁ q),
        fun q hq hmem => ?_, hend⟩
      apply hroutes q ((henabled₁ q).mpr hq)
      rw [hsends.linkedRs, setRd_reportData]
      by_cases hdata : q.dataId = r.dataId
      · obtain rfl := hexclusive.eq hq henabled hdata
        exact Or.inr (by rw [if_pos rfl])
      · rw [if_neg hdata]
        exact hmem.imp_left fun hmem => (List.mem_cons.mp hmem).resolve_left fun heq => hdata (heq ▸ rfl)
    · obtain ⟨s', hrun', hwired, hcontents, hsel, hsame, hroutes, hend⟩ :=
        ih hexclusive hselected hw hc hawake
      simp only [(hw.disabled j r henabled).1, hrun']
      refine ⟨s', rfl, hwired, hcontents, hsel, hsame, fun q hq hmem => hroutes q hq ?_, hend⟩
      refine hmem.imp_left fun hmem => (List.mem_cons.mp hmem).resolve_left ?_
      rintro rfl
      exact henabled hq

theorem id_of_getSubscriberByType {isUsb : Bool} (h : getSubscriberByType cfg s isUsb = some j) :
    (s.subscriber j).id ≠ none ∧ (s.subscriber j).isUsb = isUsb := by
  rw [getSubscriberByType] at h
  have hj := List.find?_some h
  simp only [decide_eq_true_eq] at hj
  exact ⟨Option.isSome_iff_ne_none.mp hj.1, hj.2⟩

theorem isUsb_of_getSubscriberByType {isUsb : Bool} (h : getSubscriberByType cfg s isUsb = none)
    (hj : j < cfg.subscriberCount) (hid : (s.subscriber j).id = some id) :
    (s.subscriber j).isUsb ≠ isUsb := by
  rw [getSubscriberByType, List.find?_eq_none] at h
  have hnot := h j (List.mem_range.mpr hj)
  simpa [hid] using hnot

theorem nextSelected (h : Slots cfg flight s.subscriber) {next : Option Nat}
    (hnext : (getSubscriberByType cfg s true).or (getSubscriberByType cfg s false) = next) :
    Chosen s.subscriber next := by
  have hslot (j jd : Nat) (hj : (s.subscriber j).id = some jd) : j < cfg.subscriberCount :=
    (h.slots j).slot (by simp [hj])
  have husb (j : Nat) (hj : (s.subscriber j).isUsb = true) : ∃ jd, (s.subscriber j).id = some jd := by
    apply Option.ne_none_iff_exists'.mp
    intro hnone
    rw [(h.slots j).idle hnone] at hj
    contradiction
  subst hnext
  cases hfirst : getSubscriberByType cfg s true with
  | some j =>
    obtain ⟨hid, hisUsb⟩ := id_of_getSubscriberByType hfirst
    refine ⟨?_, ?_, by simp⟩
    · rintro _ ⟨⟩
      exact hid
    · rintro _ _ _ ⟨⟩
      exact hisUsb
  | none =>
    rw [Option.none_or]
    refine ⟨fun j hj => (id_of_getSubscriberByType hj).1, fun j k hj _ => ?_, fun j jd hj hnone => ?_⟩
    · obtain ⟨jd, hid⟩ := husb j hj
      exact absurd hj (isUsb_of_getSubscriberByType hfirst (hslot j jd hid) hid)
    · have hnot := isUsb_of_getSubscriberByType hfirst (hslot j jd hj) hj
      have hnot' := isUsb_of_getSubscriberByType hnone (hslot j jd hj) hj
      simp at hnot hnot'
      exact absurd hnot' (by simp [hnot])

/-- `disconnect_subscriber`, while no two reports with the same data are enabled. -/
theorem Sound.disconnectSubscriber (hcfg : cfg.Valid) (h : Sound cfg timely reliable pressed base s)
    (hsubmitted : s.submitted = []) (hexclusive : ∀ i, Exclusive s i) :
    ∃ s', disconnectSubscriber cfg s id = some s' ∧
      Sound cfg timely reliable pressed (base.filter (·.1 ≠ some id)) s' := by
  have hbase : base ++ s.submitted.map (·.key) = base := by simp [hsubmitted]
  have hwired := hbase ▸ h.wired
  rw [HidReports.disconnectSubscriber]
  cases hget : getSubscriber cfg s id with
  | none =>
    have hall : base.filter (·.1 ≠ some id) = base := by
      rw [List.filter_eq_self]
      intro key hkey
      obtain ⟨k, kd, hk, heq, -⟩ := hwired.known key hkey
      rw [heq, ← hk]
      simpa using id_ne_of_getSubscriber h.wired hget k
    rw [hall]
    exact ⟨s, rfl, h⟩
  | some i =>
    have hid := id_of_getSubscriber hget
    have hleave : Slots cfg (base.filter (·.1 ≠ some id) ++ s.submitted.map (·.key))
        (Function.update s.subscriber i clearedSubscriber) := by
      simpa [hsubmitted] using hwired.toSlots.leave hid
    by_cases hselected : s.selected = some i
    · obtain ⟨data, hrun, hcontents, hcleared, hsame⟩ :=
        unlinkFrom_spec cfg.reports hcfg.distinct (hexclusive i)
        (fun r hr => ⟨(h.wired.enabled i r hr).2.1, (h.wired.enabled i r hr).2.2.1⟩)
        (fun r hr => (h.wired.disabled i r hr).1)
        (fun r _ hr => h.routed i r hselected hr fun hdata => by
          by_contra hne
          exact hexclusive i r hr hne hdata) h.contents
      have hlinks (d : ReportId) : (data d).linkedRs = none ∧ ∀ u ≠ 0, held (data d).items.item u = 0 := by
        by_cases hd : ∃ r ∈ cfg.reports, s.Enabled i r ∧ r.dataId = d
        · obtain ⟨r, hr, hre, rfl⟩ := hd
          exact hcleared r hr hre
        · have hdata := hsame d fun r hr hre heq => hd ⟨r, hr, hre, heq⟩
          have hnone : (s.reportData d).linkedRs = none := by
            by_contra hl
            obtain ⟨⟨k, q⟩, hl⟩ := Option.ne_none_iff_exists'.mp hl
            obtain ⟨hk, hqd, hq⟩ := h.wired.linked d k q hl
            obtain rfl : i = k := Option.some.inj (hselected.symm.trans hk)
            exact hd ⟨q, (h.wired.enabled i q hq).2.2.2, hq, hqd⟩
          rw [hdata]
          exact ⟨hnone, h.wired.blank d hnone⟩
      have hleft : (({ s with reportData := data } : HidState).setSubscriber i clearedSubscriber).selected =
        some i := hselected
      simp only [if_pos hselected, hrun, Option.bind_some, if_pos hleft]
      generalize hnext : (getSubscriberByType cfg
        (({ s with reportData := data } : HidState).setSubscriber i clearedSubscriber) true).or
          (getSubscriberByType cfg
            (({ s with reportData := data } : HidState).setSubscriber i clearedSubscriber) false) = next
      have hchosen := nextSelected hleave hnext
      cases next with
      | none =>
        exact ⟨_, rfl, .of_unlinked hleave hchosen hlinks (fun k q hk => by contradiction) hcontents⟩
      | some j =>
        have hji : j ≠ i := by
          rintro rfl
          apply hchosen.selected j rfl
          simp
          rfl
        have hexclusive' : Exclusive { ({ s with reportData := data } : HidState).setSubscriber i
            clearedSubscriber with selected := some j } j := by
          have hrs (q : ReportId) : ({ ({ s with reportData := data } : HidState).setSubscriber i
              clearedSubscriber with selected := some j } : HidState).rs j q = s.rs j q := by
            simp [HidState.rs, hji]
          intro q hq hne
          rw [HidState.Enabled, hrs] at hq ⊢
          exact hexclusive j q hq hne
        have hunlinked : Wired cfg _ { ({ s with reportData := data } : HidState).setSubscriber i
            clearedSubscriber with selected := some j } :=
          ⟨hleave, hchosen, fun d k r hl => absurd hl (by simp [(hlinks d).1]), fun d _ => (hlinks d).2⟩
        obtain ⟨s', hroute, hwired', hcontents', hsel, hsame', hroutes, hend⟩ :=
          routeFrom_spec hcfg cfg.reports hexclusive' rfl hunlinked hcontents
            fun d => .of_unlinked (hlinks d).1
        refine ⟨s', hroute, ⟨hwired', fun k q hk hq _ => ?_, hcontents'⟩, fun _ => hend⟩
        obtain rfl : j = k := Option.some.inj (hsel.symm.trans hk)
        have hq' := (hsame' q).mp hq
        exact hroutes q hq' (Or.inl (hunlinked.enabled j q hq').2.2.2)
    · simp only [hselected, if_false, Option.bind_some, HidState.setSubscriber_selected]
      exact ⟨_, rfl, h.others hselected rfl (fun hne => absurd rfl hne) hleave⟩

end SdkNrf.Desktop.HidReports
