import SdkNrf.Enocean.StorageInvariant

/-!
# Runs of the EnOcean device table

What holds of the table and its entries over commissionings, decommissionings, messages and store work.
-/

namespace SdkNrf.Enocean

/-- A key has 16 bytes, a message is accepted from an active device with a larger sequence number,
and the store work runs when it is pending. -/
def StorageOrder (s : Storage) : StorageEvent → Prop
  | .commission _ key _ _ _ => key.length = 16
  | .decommission i _ => i < s.table.devices.length
  | .receive i seq _ => ∃ dev ∈ s.table.devices[i]?, dev.active = true ∧ dev.seq < seq
  | .expired _ _ => s.table.work = true

/-- Places below 256 are used, and a new device that the application does not reject can be stored.
-/
def Storable (s : Storage) : StorageEvent → Prop
  | .commission addr _ _ callback results => (∀ c ∈ callback, c.1 < 256) ∧
    (deviceFind s.table.devices addr = none → ∀ i ∈ freeSlot s.table.devices,
      i < 256 ∧ (i ∈ callback.map Prod.fst ∨ results.succeed = true))
  | .decommission i _ => i < 256
  | _ => True

/-- Active devices have different addresses; a commissioning that returns an error leaves the active
devices as they were; and what has been stored is what is loaded. -/
structure StorageRight (s : Storage) : Prop where
  distinct : ∀ (i j : Nat) dev dev', s.table.devices[i]? = some dev → dev.active = true →
    s.table.devices[j]? = some dev' → dev'.active = true → dev.addr = dev'.addr → i = j
  unchanged : s.unchanged = true
  loaded : s.succeeded = true → s.stored = true → ∀ entries, EntriesOf s.table.settings entries →
    ∀ i, activeAt (loadEntries s.table.devices.length entries) i = activeAt s.table.devices i

structure StorageInv (s : Storage) : Prop where
  table : TableInv s.table
  stored : s.succeeded = true → ∀ i < 256, s.table.StoredAt i
  clean : s.succeeded = true → s.stored = true → ∀ dev ∈ s.table.devices, dev.dirty = false
  unchanged : s.unchanged = true

section Commissioning

variable {t : Table} {addr : BtAddrLe} {key : List UInt8} {seq : UInt32} {callback : List (Nat × Results)}
  {results : Results} {i : Nat}

theorem commission_refused (h : deviceFind t.devices addr = none → freeSlot t.devices = none) :
    ∃ err, t.btEnoceanCommission addr key seq callback results = ⟨t, err, []⟩ := by
  rw [Table.btEnoceanCommission]
  cases hfind : deviceFind t.devices addr with
  | some j => exact ⟨-EEXIST, rfl⟩
  | none =>
    rw [h hfind]
    exact ⟨-ENOMEM, rfl⟩

def Table.allocated (t : Table) (i : Nat) (addr : BtAddrLe) (key : List UInt8) (seq : UInt32)
    (callback : List (Nat × Results)) : Table :=
  (t.alloc i addr key seq).decommissionAll callback

theorem allocated_rejected (hmem : i ∈ callback.map Prod.fst) :
    (t.allocated i addr key seq callback).devices[i]?.filter BtEnoceanDevice.active = none := by
  rw [Table.allocated, getElem?_decommissionAll]
  simp only [if_pos hmem]
  cases (t.alloc i addr key seq).devices[i]? with
  | none => rfl
  | some dev => simp [BtEnoceanDevice.active]

theorem allocated_taken (hfree : freeSlot t.devices = some i) (hmem : i ∉ callback.map Prod.fst) :
    ∃ dev : BtEnoceanDevice, dev.active = true ∧
        (t.allocated i addr key seq callback).devices[i]? = some dev := by
  obtain ⟨old, hold, -⟩ := freeSlot_eq_some hfree
  refine ⟨{ old with addr, seq, key := key.take 16, flags := FLAG_ACTIVE },
    (by decide : decide (FLAG_ACTIVE &&& FLAG_ACTIVE ≠ 0) = true), ?_⟩
  rw [Table.allocated, getElem?_decommissionAll, getElem?_alloc, hold]
  simp [hmem]

theorem commission_rejected (hfind : deviceFind t.devices addr = none) (hfree : freeSlot t.devices = some i)
    (hmem : i ∈ callback.map Prod.fst) : t.btEnoceanCommission addr key seq callback results =
      ⟨t.allocated i addr key seq callback, -ECANCELED, callback.map Prod.fst⟩ := by
  have hnone := @allocated_rejected t addr key seq callback i hmem
  rw [Table.allocated, Table.alloc] at hnone
  rw [Table.btEnoceanCommission, hfind, hfree]
  simp only [hnone]
  rfl

theorem commission_taken (hfind : deviceFind t.devices addr = none) (hfree : freeSlot t.devices = some i)
    (hi : i < 256) (hmem : i ∉ callback.map Prod.fst) (hok : results.succeed = true) :
    ∃ dev : BtEnoceanDevice, dev.active = true ∧
        (t.allocated i addr key seq callback).devices[i]? = some dev ∧
      t.btEnoceanCommission addr key seq callback results =
        ⟨{ t.allocated i addr key seq callback with
            settings := {
              device := Function.update (t.allocated i addr key seq callback).settings.device i
                (some ⟨dev.addr, dev.key⟩)
              seq := Function.update (t.allocated i addr key seq callback).settings.seq i (some dev.seq) } },
          0, callback.map Prod.fst⟩ := by
  obtain ⟨dev, hactive, hdev⟩ := @allocated_taken t addr key seq callback i hfree hmem
  refine ⟨dev, hactive, hdev, ?_⟩
  have hsome : (t.allocated i addr key seq callback).devices[i]?.filter BtEnoceanDevice.active =
    some dev := by
    simp [hdev, hactive]
  rw [Table.allocated, Table.alloc] at hsome
  rw [Table.btEnoceanCommission, hfind, hfree]
  simp only [hsome, storeNewDev_spec hi hok]
  rfl

theorem allocated_other {j : Nat} (hij : i ≠ j) : (t.allocated i addr key seq callback).devices[j]? =
    t.devices[j]?.map fun dev => if j ∈ callback.map Prod.fst then { dev with flags := 0 } else dev := by
  rw [Table.allocated, getElem?_decommissionAll, getElem?_alloc, Option.map_map]
  simp [Function.comp_def, hij]

theorem allocated_clean (hclean : ∀ dev ∈ t.devices, dev.dirty = false) :
    ∀ dev ∈ (t.allocated i addr key seq callback).devices, dev.dirty = false := by
  intro dev hdev
  obtain ⟨j, hj⟩ := List.mem_iff_getElem?.mp hdev
  rw [Table.allocated, getElem?_decommissionAll, getElem?_alloc, Option.map_map] at hj
  obtain ⟨old, hold, rfl⟩ := Option.map_eq_some_iff.mp hj
  have hactive : decide (FLAG_ACTIVE &&& FLAG_DIRTY ≠ 0) = false := by decide
  have hzero : decide ((0 : UInt8) &&& FLAG_DIRTY ≠ 0) = false := by decide
  simp only [Function.comp_apply]
  split_ifs
  · exact hzero
  · exact hzero
  · exact hactive
  · exact hclean old (List.mem_of_getElem? hold)

theorem allocated_storedAt (hstored : ∀ j < 256, t.StoredAt j) (hplaces : ∀ c ∈ callback, c.1 < 256)
    (hok : (callback.all fun c => c.2.succeed) = true) {j : Nat} (hj : j < 256)
    (h : i = j → j ∈ callback.map Prod.fst) : (t.allocated i addr key seq callback).StoredAt j := by
  apply Table.StoredAt.decommissionAll hplaces hok hj
  intro hmem
  have hij : i ≠ j := fun heq => hmem (h heq)
  have hold := hstored j hj
  rw [Table.StoredAt] at hold ⊢
  rw [getElem?_alloc]
  simpa [hij, Table.alloc] using hold

theorem activeAt_rejected (hmem : i ∈ callback.map Prod.fst) (j : Nat) :
    activeAt (t.allocated i addr key seq callback).devices j = withoutAt t.devices
        (callback.map Prod.fst) j := by
  by_cases hij : i = j
  · subst hij
    rw [activeAt, allocated_rejected hmem, withoutAt, if_pos hmem]
    rfl
  · rw [activeAt, allocated_other hij, withoutAt]
    by_cases hj : j ∈ callback.map Prod.fst
    · simp only [if_pos hj]
      cases t.devices[j]? with
      | none => rfl
      | some dev => simp [BtEnoceanDevice.active]
    · simp only [if_neg hj, activeAt]
      cases t.devices[j]? <;> rfl

def Table.callbackOf (env : Surroundings) (t : Table) (results : Results) : List (Nat × Results) :=
  match freeSlot t.devices with
  | some i => if env.commissioned ∧ env.rejects then [(i, results)] else []
  | none => []

theorem commission_allocated (hfind : deviceFind t.devices addr = none)
    (hfree : freeSlot t.devices = some i) :
    (t.btEnoceanCommission addr key seq callback results).table.devices =
      (t.allocated i addr key seq callback).devices := by
  rw [Table.btEnoceanCommission, hfind, hfree]
  dsimp only
  split <;> rfl

/-- The devices are those of the commissioning without a storage. -/
theorem commission_devices (env : Surroundings) (hkey : 16 ≤ key.length) (deleted : Results) :
    (btEnoceanCommission env t.devices addr key seq).map (fun result => result.1.1) =
      some (t.btEnoceanCommission addr key seq (t.callbackOf env deleted) results).table.devices := by
  by_cases hrefused : deviceFind t.devices addr = none → freeSlot t.devices = none
  · obtain ⟨err, -, hrun⟩ := btEnoceanCommission_refused env key seq hrefused
    obtain ⟨err', hrun'⟩ := @commission_refused t addr key seq (t.callbackOf env deleted) results hrefused
    rw [hrun, hrun']
    rfl
  · push Not at hrefused
    obtain ⟨hfind, hfree⟩ := hrefused
    obtain ⟨i, hi⟩ := Option.ne_none_iff_exists'.mp hfree
    rw [commission_allocated hfind hi, btEnoceanCommission, Table.callbackOf, hfind, hi]
    simp only [if_neg (not_lt.mpr hkey)]
    by_cases hrejects : env.commissioned = true ∧ env.rejects = true
    · simp only [if_pos hrejects]
      rfl
    · simp only [if_neg hrejects]
      split_ifs <;> rfl

end Commissioning

namespace StorageInv

variable {s : Storage}

theorem init (n : Nat) : StorageInv (Storage.init n) := by
  have hempty : ∀ (i : Nat) dev, (List.replicate n emptyDevice)[i]? = some dev → dev = emptyDevice := by
    intro i dev hdev
    exact List.eq_of_mem_replicate (List.mem_of_getElem? hdev)
  have hinactive : emptyDevice.active = false := inactive_of_flags rfl
  exact {
    table := {
      flagged := fun dev hdev => .inl (by rw [List.eq_of_mem_replicate hdev]; rfl)
      distinct := fun i j dev dev' hi hactive => by
        rw [hempty i dev hi, hinactive] at hactive
        cases hactive
      low := fun i dev hi hactive => by
        rw [hempty i dev hi, hinactive] at hactive
        cases hactive
      high := fun _ _ => ⟨rfl, rfl⟩ }
    stored := fun _ i _ => (slotStored_inactive fun dev hdev =>
      by rw [hempty i dev hdev, hinactive]).mpr ⟨rfl, rfl⟩
    clean := fun _ _ dev hdev => by
      rw [List.eq_of_mem_replicate hdev]
      decide
    unchanged := rfl }

theorem commission (h : StorageInv s) {addr : BtAddrLe} {key : List UInt8} {seq : UInt32}
    {callback : List (Nat × Results)} {results : Results}
    (hstorable : Storable s (.commission addr key seq callback results)) :
    StorageInv (s.step (.commission addr key seq callback results)) := by
  obtain ⟨hplaces, hnew⟩ := hstorable
  by_cases hrefused : deviceFind s.table.devices addr = none → freeSlot s.table.devices = none
  · obtain ⟨err, hrun⟩ := @commission_refused s.table addr key seq callback results hrefused
    simp only [Storage.step, hrun]
    exact {
      table := h.table
      stored := fun hok => h.stored (by simp at hok; exact hok.1)
      clean := fun hok => h.clean (by simp at hok; exact hok.1)
      unchanged := by simp [h.unchanged, withoutAt] }
  · push Not at hrefused
    obtain ⟨hfind, hfree⟩ := hrefused
    obtain ⟨i, hi⟩ := Option.ne_none_iff_exists'.mp hfree
    obtain ⟨hlow, hcases⟩ := hnew hfind i hi
    have hallocated : TableInv (s.table.allocated i addr key seq callback) :=
      decommissionAll_inv (h.table.alloc hfind hlow key seq)
    by_cases hmem : i ∈ callback.map Prod.fst
    · have hrun := @commission_rejected s.table addr key seq callback results i hfind hi hmem
      simp only [Storage.step, hrun]
      exact {
        table := hallocated
        stored := fun hok j hj => by
          simp only [Bool.decide_and, Bool.and_eq_true, decide_eq_true_eq] at hok
          exact allocated_storedAt (h.stored hok.1) hplaces hok.2.2 hj fun heq => heq ▸ hmem
        clean := fun hok hstored => by
          simp only [Bool.decide_and, Bool.and_eq_true, decide_eq_true_eq] at hok
          exact allocated_clean (h.clean hok.1 hstored)
        unchanged := by simp [h.unchanged, activeAt_rejected hmem] }
    · have hsucceed := hcases.resolve_left hmem
      obtain ⟨dev, hactive, hdev, hrun⟩ :=
        @commission_taken s.table addr key seq callback results i hfind hi hlow hmem hsucceed
      simp only [Storage.step, hrun]
      exact {
        table := hallocated.settings fun j hj => by
          have hne : j ≠ i := by omega
          simp only [Function.update_of_ne hne]
          exact hallocated.high j hj
        stored := fun hok j hj => by
          simp only [Bool.decide_and, Bool.and_eq_true, decide_eq_true_eq] at hok
          rw [Table.StoredAt]
          by_cases hij : i = j
          · subst hij
            simp only [Function.update_self]
            rw [hdev]
            exact (slotStored_active hactive).mpr ⟨rfl, fun _ => rfl⟩
          · simp only [Function.update_of_ne (Ne.symm hij)]
            exact allocated_storedAt (h.stored hok.1) hplaces hok.2.2 hj fun heq => absurd heq hij
        clean := fun hok hstored => by
          simp only [Bool.decide_and, Bool.and_eq_true, decide_eq_true_eq] at hok
          exact allocated_clean (h.clean hok.1 hstored)
        unchanged := by simp [h.unchanged] }

theorem decommission (h : StorageInv s) {i : Nat} {results : Results} (hi : i < 256) :
    StorageInv (s.step (.decommission i results)) where
  table := h.table.decommission i results
  stored hok j hj := by
    simp only [Storage.step, Bool.decide_and, Bool.and_eq_true, decide_eq_true_eq] at hok
    exact Table.StoredAt.decommission hi hj hok.2 fun _ => h.stored hok.1 j hj
  clean hok hstored dev hdev := by
    simp only [Storage.step, Bool.decide_and, Bool.and_eq_true, decide_eq_true_eq] at hok
    obtain ⟨j, hj⟩ := List.mem_iff_getElem?.mp hdev
    simp only [Storage.step] at hj
    rw [getElem?_decommission] at hj
    obtain ⟨old, hold, rfl⟩ := Option.map_eq_some_iff.mp hj
    split_ifs
    · exact (by decide : decide ((0 : UInt8) &&& FLAG_DIRTY ≠ 0) = false)
    · exact h.clean hok.1 hstored old (List.mem_of_getElem? hold)
  unchanged := h.unchanged

theorem getElem?_accepted (devices : List BtEnoceanDevice) (i : Nat) (seq : UInt32) (rssi : Int8) (j : Nat) :
    (accepted devices i seq rssi)[j]? = devices[j]?.map fun dev =>
      if i = j then { dev with seq, rssi, flags := dev.flags ||| FLAG_DIRTY } else dev := by
  rw [accepted, List.getElem?_modify]
  split <;> simp

theorem receive (h : StorageInv s) {i : Nat} {seq : UInt32} {rssi : Int8}
    (horder : StorageOrder s (.receive i seq rssi)) : StorageInv (s.step (.receive i seq rssi)) := by
  obtain ⟨dev, hdev, hactive, -⟩ := horder
  have hflagged := h.table.flagged dev (List.mem_of_getElem? hdev)
  have hflags : dev.flags ||| FLAG_DIRTY = FLAG_ACTIVE ||| FLAG_DIRTY := by
    obtain hf | hf | hf := hflagged
    · rw [inactive_of_flags hf] at hactive
      cases hactive
    · rw [hf]
    · rw [hf]
      decide
  have hcases : ∀ (j : Nat) dev', (accepted s.table.devices i seq rssi)[j]? = some dev' →
      (j = i ∧ dev' = { dev with seq, rssi, flags := FLAG_ACTIVE ||| FLAG_DIRTY }) ∨
        (j ≠ i ∧ s.table.devices[j]? = some dev') := by
    intro j dev' hj
    rw [getElem?_accepted] at hj
    obtain ⟨old, hold, rfl⟩ := Option.map_eq_some_iff.mp hj
    by_cases hij : i = j
    · subst hij
      obtain rfl := Option.some.inj (hdev.symm.trans hold)
      exact .inl ⟨rfl, by simp [hflags]⟩
    · exact .inr ⟨Ne.symm hij, by simpa [hij] using hold⟩
  have hfrom : ∀ (j : Nat) dev', (accepted s.table.devices i seq rssi)[j]? = some dev' → dev'.active = true →
      ∃ old, s.table.devices[j]? = some old ∧ old.active = true ∧ old.addr = dev'.addr := by
    intro j dev' hj hactive'
    rcases hcases j dev' hj with ⟨rfl, rfl⟩ | ⟨-, hold⟩
    · exact ⟨dev, hdev, hactive, rfl⟩
    · exact ⟨dev', hold, hactive', rfl⟩
  exact {
    table := {
      flagged := by
        intro dev' hdev'
        obtain ⟨j, hj⟩ := List.mem_iff_getElem?.mp hdev'
        rcases hcases j dev' hj with ⟨-, rfl⟩ | ⟨-, hold⟩
        · exact .inr (.inr rfl)
        · exact h.table.flagged dev' (List.mem_of_getElem? hold)
      distinct := by
        intro j k d d' hj hactive' hk hactive'' haddr
        obtain ⟨old, hold, holdActive, holdAddr⟩ := hfrom j d hj hactive'
        obtain ⟨old', hold', holdActive', holdAddr'⟩ := hfrom k d' hk hactive''
        exact h.table.distinct j k old old' hold holdActive hold' holdActive'
          (by rw [holdAddr, haddr, holdAddr'])
      low := by
        intro j d hj hactive'
        obtain ⟨old, hold, holdActive, -⟩ := hfrom j d hj hactive'
        exact h.table.low j old hold holdActive
      high := h.table.high }
    stored := by
      intro hok j hj
      have hold := h.stored hok j hj
      rw [Table.StoredAt] at hold ⊢
      simp only [Storage.step, Table.receive]
      rw [getElem?_accepted]
      by_cases hij : i = j
      · subst hij
        rw [Option.mem_def.mp hdev, slotStored_active hactive] at hold
        rw [Option.mem_def.mp hdev, Option.map_some, if_pos rfl]
        obtain ⟨hactive', hdirty'⟩ := @active_dirty_of_flags
          { dev with seq, rssi, flags := dev.flags ||| FLAG_DIRTY } hflags
        rw [slotStored_active hactive', hdirty']
        exact ⟨hold.1, fun hdirty => (by cases hdirty)⟩
      · simpa [hij] using hold
    clean := fun _ hstored => absurd hstored (by simp [Storage.step])
    unchanged := h.unchanged }

theorem expired (h : StorageInv s) (errs : Nat → Int) (err : Int) :
    StorageInv (s.step (.expired errs err)) := by
  have hall : s.succeeded = true → (∀ i < s.table.devices.length, errs i = 0) → _ := fun _ hok =>
    @storeDirtyFrom_all errs s.table.devices s.table.settings err 0 (by simpa using hok) h.table.flagged
      (fun j dev hj hdirty => by
        have hactive := (h.table.flagged dev (List.mem_of_getElem? hj)).active_of_dirty hdirty
        simpa using h.table.low j dev hj hactive)
  exact {
    table := h.table.storeDirty
    stored := by
      intro hok j hj
      simp only [Storage.step, Bool.decide_and, Bool.and_eq_true, decide_eq_true_eq] at hok
      obtain ⟨hmap, -, habove, hat⟩ := hall hok.1 hok.2
      have hdevice := (@storeDirtyFrom_keeps errs s.table.devices s.table.settings err 0).2.1
      have hold := h.stored hok.1 j hj
      rw [Table.StoredAt] at hold ⊢
      simp only [Storage.step, Table.storeDirty]
      rw [hmap, hdevice, List.getElem?_map]
      cases hdev : s.table.devices[j]? with
      | none =>
        rw [hdev] at hold
        have hseq := habove j (by simpa using hdev)
        rw [Option.map_none, hseq]
        exact hold
      | some dev =>
        have hflagged := h.table.flagged dev (List.mem_of_getElem? hdev)
        have hseq := hat j dev hdev
        rw [Nat.zero_add] at hseq
        rw [hdev] at hold
        rw [Option.map_some, hseq]
        by_cases hactive : dev.active = true
        · rw [slotStored_active hactive] at hold
          rw [slotStored_active (hflagged.clear_active.trans hactive)]
          refine ⟨hold.1, fun _ => ?_⟩
          split_ifs with hdirty
          · rfl
          · exact hold.2 (by simpa using hdirty)
        · have hclean : ¬ dev.dirty = true := fun hdirty => hactive (hflagged.active_of_dirty hdirty)
          rw [if_neg hclean, hflagged.clear_of_clean (by simpa using hclean)]
          exact hold
    clean := by
      intro hok _ dev hdev
      simp only [Storage.step, Bool.decide_and, Bool.and_eq_true, decide_eq_true_eq] at hok
      obtain ⟨hmap, -⟩ := hall hok.1 hok.2
      simp only [Storage.step, Table.storeDirty] at hdev
      rw [hmap] at hdev
      obtain ⟨old, hold, rfl⟩ := List.mem_map.mp hdev
      exact (h.table.flagged old hold).clear_clean
    unchanged := h.unchanged }

theorem step (h : StorageInv s) {e : StorageEvent} (horder : StorageOrder s e) (hstorable : Storable s e) :
    StorageInv (s.step e) := by
  cases e with
  | commission addr key seq callback results => exact h.commission hstorable
  | decommission i results => exact h.decommission hstorable
  | receive i seq rssi => exact h.receive horder
  | expired errs err => exact h.expired errs err

theorem loaded (h : StorageInv s) (hok : s.succeeded = true) (hstored : s.stored = true)
    {entries : List Entry}
    (hentries : EntriesOf s.table.settings entries) (i : Nat) :
    activeAt (loadEntries s.table.devices.length entries) i = activeAt s.table.devices i := by
  cases hdev : s.table.devices[i]? with
  | none =>
    have hlength : s.table.devices.length ≤ i := by simpa using hdev
    have hload : (loadEntries s.table.devices.length entries)[i]? = none := by
      simpa [length_loadEntries] using hlength
    rw [activeAt, activeAt, hdev, hload]
  | some dev =>
    have hi : i < s.table.devices.length := (List.getElem?_eq_some_iff.mp hdev).1
    rw [activeAt, activeAt, hdev, loadEntries_at hi]
    by_cases hactive : dev.active = true
    · have hslot := h.stored hok i (h.table.low i dev hdev hactive)
      rw [Table.StoredAt, hdev, slotStored_active hactive] at hslot
      have hseq := hslot.2 (h.clean hok hstored dev (List.mem_of_getElem? hdev))
      obtain ⟨hiff, hdata⟩ := @loaded_device entries i ⟨dev.addr, dev.key⟩ fun e he => by
        rw [hentries.device, hslot.1] at he
        exact (Option.some.inj he).symm
      have hload := hiff.mpr ((hentries.device i _).mpr hslot.1)
      obtain ⟨haddr, hkey⟩ := hdata hload
      have hloadSeq := @loaded_seq entries i dev.seq
        (fun value hvalue => by
          rw [hentries.seq, hseq] at hvalue
          exact (Option.some.inj hvalue).symm)
        ((hentries.seq i _).mpr hseq)
      rw [Option.filter_some_pos hload, Option.filter_some_pos hactive, Option.map_some,
        Option.map_some, haddr, hkey,
        hloadSeq]
    · have hnone : s.table.settings.device i = none := by
        by_cases hlow : i < 256
        · have hslot := h.stored hok i hlow
          rw [Table.StoredAt, hdev, slotStored_inactive (by simpa using hactive)] at hslot
          exact hslot.1
        · exact (h.table.high i (not_lt.mp hlow)).1
      have habsent : ∀ e, .device i e ∉ entries := by
        intro e he
        rw [hentries.device, hnone] at he
        cases he
      have hload := (@loaded_device entries i ⟨dev.addr, dev.key⟩ fun e he => absurd he (habsent e)).1
      have hinactive := mt hload.mp (habsent _)
      rw [Option.filter_some_neg (Bool.eq_false_iff.mpr hinactive),
        Option.filter_some_neg (Bool.eq_false_iff.mpr hactive)]

theorem right (h : StorageInv s) : StorageRight s where
  distinct := h.table.distinct
  unchanged := h.unchanged
  loaded hok hstored _ hentries := h.loaded hok hstored hentries

end StorageInv

/-- In every run that uses places below 256 and in which a new device can be stored. -/
theorem storage_right (n : Nat) {s : Storage}
    (hs : Reached Storage.step (fun s e => StorageOrder s e ∧ Storable s e) (Storage.init n) s) :
    StorageRight s :=
  (hs.invariant (StorageInv.init n) fun _ _ h he => h.step he.1 he.2).right

/-- A device is commissioned, and its place in the table is stored. -/
theorem newSensor_stored : StorageRight ((Storage.init 1).step
    (.commission sensor.addr sensor.key 5 [] ⟨0, 0⟩)) := by
  apply storage_right 1
  apply Reached.start.next
  exact ⟨rfl, by simp, fun _ i hi => ⟨by cases hi; decide, .inr rfl⟩⟩

/-- A new device whose entry cannot be saved is in the table although an error is returned. -/
theorem unsavedSensor_active : ¬ ∀ n s, Reached Storage.step StorageOrder (Storage.init n) s →
    StorageRight s := by
  intro h
  have hreached : Reached Storage.step StorageOrder (Storage.init 1)
      ((Storage.init 1).step (.commission sensor.addr sensor.key 5 [] ⟨-5, 0⟩)) := Reached.start.next _ rfl
  exact absurd (h 1 _ hreached).unchanged (by decide)

end SdkNrf.Enocean
