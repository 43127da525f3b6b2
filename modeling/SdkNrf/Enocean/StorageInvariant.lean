import SdkNrf.Enocean.Storage

/-!
# What the settings know of the EnOcean devices

While all operations of the settings succeed, the entries of a place are those of its active device,
but for the sequence number of a device that is dirty.
-/

namespace SdkNrf.Enocean

section Loading

variable {devices : List BtEnoceanDevice} {entries : List Entry} {n i : Nat}

def Entry.applyAt (i : Nat) (dev : BtEnoceanDevice) : Entry → BtEnoceanDevice
  | .device index entry =>
    if index = i then
      { dev with
        addr := entry.addr
        key := entry.key
        flags := dev.flags ||| FLAG_ACTIVE }
    else dev
  | .seq index value => if index = i then { dev with seq := value } else dev

theorem getElem?_settingsSet (e : Entry) (i : Nat) :
    (settingsSet devices e)[i]? = devices[i]?.map fun dev => e.applyAt i dev := by
  cases e <;>
  · simp only [settingsSet, List.getElem?_modify, Entry.applyAt]
    split <;> simp

theorem loadEntries_at (hi : i < n) (entries : List Entry) :
    (loadEntries n entries)[i]? = some (entries.foldl (Entry.applyAt i) emptyDevice) := by
  induction entries using List.reverseRecOn with
  | nil => simp [loadEntries, hi]
  | append_singleton entries e ih =>
    rw [loadEntries] at ih ⊢
    rw [List.foldl_append, List.foldl_append, List.foldl_cons, List.foldl_nil, getElem?_settingsSet, ih]
    rfl

theorem length_loadEntries (n : Nat) (entries : List Entry) : (loadEntries n entries).length = n := by
  induction entries using List.reverseRecOn with
  | nil => simp [loadEntries]
  | append_singleton entries e ih =>
    rw [loadEntries] at ih ⊢
    rw [List.foldl_append, List.foldl_cons, List.foldl_nil]
    cases e <;> simpa [settingsSet] using ih

theorem active_or (flags : UInt8) : (flags ||| FLAG_ACTIVE) &&& FLAG_ACTIVE = FLAG_ACTIVE := by
  apply UInt8.toBitVec_inj.mp
  simp only [UInt8.toBitVec_and, UInt8.toBitVec_or]
  ext j hj
  simp
  grind

theorem loaded_device {entry : DeviceEntry} (hall : ∀ e, .device i e ∈ entries → e = entry) :
    ((entries.foldl (Entry.applyAt i) emptyDevice).active = true ↔ .device i entry ∈ entries) ∧
      ((entries.foldl (Entry.applyAt i) emptyDevice).active = true →
        (entries.foldl (Entry.applyAt i) emptyDevice).addr = entry.addr ∧
          (entries.foldl (Entry.applyAt i) emptyDevice).key = entry.key) := by
  induction entries using List.reverseRecOn with
  | nil => simp [emptyDevice, BtEnoceanDevice.active]
  | append_singleton entries e ih =>
    have hinit := ih fun e he => hall e (List.mem_append_left _ he)
    rw [List.foldl_append, List.foldl_cons, List.foldl_nil]
    generalize entries.foldl (Entry.applyAt i) emptyDevice = dev at hinit
    cases e with
    | device index last =>
      by_cases hindex : index = i
      · subst hindex
        have hlast := hall last (by simp)
        subst hlast
        have hactive : (Entry.applyAt index dev (.device index last)).active = true := by
          simp [Entry.applyAt, BtEnoceanDevice.active, active_or]
          decide
        exact ⟨by simp [hactive], fun _ => by simp [Entry.applyAt]⟩
      · simpa [Entry.applyAt, hindex, Ne.symm hindex] using hinit
    | seq index last =>
      have hsame : (Entry.applyAt i dev (.seq index last)).active = dev.active ∧
          (Entry.applyAt i dev (.seq index last)).addr = dev.addr ∧
          (Entry.applyAt i dev (.seq index last)).key = dev.key := by
        rw [Entry.applyAt]
        split <;> exact ⟨rfl, rfl, rfl⟩
      simpa [hsame] using hinit

theorem loaded_seq {seq : UInt32} (hall : ∀ value, .seq i value ∈ entries → value = seq)
    (hmem : .seq i seq ∈ entries) : (entries.foldl (Entry.applyAt i) emptyDevice).seq = seq := by
  induction entries using List.reverseRecOn with
  | nil => exact absurd hmem List.not_mem_nil
  | append_singleton entries e ih =>
    rw [List.foldl_append, List.foldl_cons, List.foldl_nil]
    cases e with
    | device index last =>
      have hin : .seq i seq ∈ entries := by simpa using hmem
      have hinit := ih (fun value h => hall value (List.mem_append_left _ h)) hin
      rw [Entry.applyAt]
      split <;> exact hinit
    | seq index last =>
      rw [Entry.applyAt]
      by_cases hindex : index = i
      · subst hindex
        rw [if_pos rfl]
        exact hall last (by simp)
      · rw [if_neg hindex]
        have hin : .seq i seq ∈ entries := by simpa [Ne.symm hindex] using hmem
        exact ih (fun value h => hall value (List.mem_append_left _ h)) hin

end Loading

def SlotStored (dev : Option BtEnoceanDevice) (entry : Option DeviceEntry) (seq : Option UInt32) : Prop :=
  match dev.filter BtEnoceanDevice.active with
  | some dev => entry = some ⟨dev.addr, dev.key⟩ ∧ (dev.dirty = false → seq = some dev.seq)
  | none => entry = none ∧ seq = none

def Table.StoredAt (t : Table) (i : Nat) : Prop :=
  SlotStored t.devices[i]? (t.settings.device i) (t.settings.seq i)

def BtEnoceanDevice.Flagged (dev : BtEnoceanDevice) : Prop :=
  dev.flags = 0 ∨ dev.flags = FLAG_ACTIVE ∨ dev.flags = FLAG_ACTIVE ||| FLAG_DIRTY

structure TableInv (t : Table) : Prop where
  flagged : ∀ dev ∈ t.devices, dev.Flagged
  distinct : ∀ (i j : Nat) dev dev', t.devices[i]? = some dev → dev.active = true →
    t.devices[j]? = some dev' → dev'.active = true → dev.addr = dev'.addr → i = j
  low : ∀ (i : Nat) dev, t.devices[i]? = some dev → dev.active = true → i < 256
  high : ∀ i, 256 ≤ i → t.settings.device i = none ∧ t.settings.seq i = none

section Places

variable {t : Table} {i j : Nat} {results : Results}

theorem encodeTag_of_lt (hi : i < 256) : encodeTag i = i := Nat.mod_eq_of_lt hi

theorem encodeTag_lt (i : Nat) : encodeTag i < 256 := Nat.mod_lt i (by decide)

theorem slotStored_inactive {dev : Option BtEnoceanDevice} (h : ∀ d ∈ dev, d.active = false)
    {entry : Option DeviceEntry}
    {seq : Option UInt32} : SlotStored dev entry seq ↔ entry = none ∧ seq = none := by
  have hfilter : dev.filter BtEnoceanDevice.active = none := by
    cases dev with
    | none => rfl
    | some d => simp [h d rfl]
  simp [SlotStored, hfilter]

theorem slotStored_active {dev : BtEnoceanDevice} (h : dev.active = true) {entry : Option DeviceEntry}
    {seq : Option UInt32} : SlotStored (some dev) entry seq ↔
      entry = some ⟨dev.addr, dev.key⟩ ∧ (dev.dirty = false → seq = some dev.seq) := by
  have hfilter : (some dev).filter BtEnoceanDevice.active = some dev := by simp [h]
  simp only [SlotStored, hfilter]

theorem getElem?_decommission (t : Table) (i : Nat) (results : Results) (j : Nat) :
    (t.btEnoceanDecommission i results).devices[j]? =
      t.devices[j]?.map fun dev => if i = j then { dev with flags := 0 } else dev := by
  simp only [Table.btEnoceanDecommission, List.getElem?_modify]
  split <;> simp

theorem Table.StoredAt.decommission (hi : i < 256) (hj : j < 256) (hok : results.succeed = true)
    (h : i ≠ j → t.StoredAt j) : (t.btEnoceanDecommission i results).StoredAt j := by
  simp only [Results.succeed, Bool.decide_and, Bool.and_eq_true, decide_eq_true_eq] at hok
  rw [Table.StoredAt, getElem?_decommission]
  simp only [Table.btEnoceanDecommission, Settings.delete, hok, if_true, encodeTag_of_lt hi]
  by_cases hij : i = j
  · subst hij
    rw [slotStored_inactive]
    · simp
    · intro d hd
      obtain ⟨dev, -, rfl⟩ := Option.map_eq_some_iff.mp hd
      exact inactive_of_flags (by simp)
  · simpa [hij, Function.update_of_ne (Ne.symm hij), Table.StoredAt] using h hij

theorem TableInv.decommission (h : TableInv t) (i : Nat) (results : Results) :
    TableInv (t.btEnoceanDecommission i results) := by
  have hsub : ∀ (j : Nat) dev', (t.btEnoceanDecommission i results).devices[j]? = some dev' →
    dev'.active = true →
      t.devices[j]? = some dev' := by
    intro j dev' hdev' hactive
    rw [getElem?_decommission] at hdev'
    obtain ⟨dev, hdev, rfl⟩ := Option.map_eq_some_iff.mp hdev'
    split_ifs at hactive ⊢
    · rw [inactive_of_flags rfl] at hactive
      cases hactive
    · exact hdev
  exact {
    flagged := by
      intro dev' hdev'
      obtain ⟨j, hj⟩ := List.mem_iff_getElem?.mp hdev'
      rw [getElem?_decommission] at hj
      obtain ⟨dev, hdev, rfl⟩ := Option.map_eq_some_iff.mp hj
      split_ifs
      · exact .inl rfl
      · exact h.flagged dev (List.mem_of_getElem? hdev)
    distinct := fun j k dev dev' hj hactive hk hactive' haddr =>
      h.distinct j k dev dev' (hsub j dev hj hactive) hactive (hsub k dev' hk hactive') hactive' haddr
    low := fun j dev hj hactive => h.low j dev (hsub j dev hj hactive) hactive
    high := by
      intro j hj
      have hne : j ≠ encodeTag i := fun heq => absurd (encodeTag_lt i) (by omega)
      simp only [Table.btEnoceanDecommission, Settings.delete]
      constructor
      · split_ifs <;> simp [Function.update_of_ne hne, (h.high j hj).1]
      · split_ifs <;> simp [Function.update_of_ne hne, (h.high j hj).2] }

theorem decommissionAll_inv {callback : List (Nat × Results)} (h : TableInv t) :
    TableInv (t.decommissionAll callback) := by
  induction callback generalizing t with
  | nil => exact h
  | cons c callback ih => exact ih (h.decommission c.1 c.2)

theorem getElem?_decommissionAll (t : Table) (callback : List (Nat × Results)) (j : Nat) :
    (t.decommissionAll callback).devices[j]? = t.devices[j]?.map fun dev =>
      if j ∈ callback.map Prod.fst then { dev with flags := 0 } else dev := by
  induction callback generalizing t with
  | nil => simp [Table.decommissionAll]
  | cons c callback ih =>
    have hcons : t.decommissionAll (c :: callback) =
      (t.btEnoceanDecommission c.1 c.2).decommissionAll callback := rfl
    rw [hcons, ih, getElem?_decommission, Option.map_map]
    congr 1
    funext dev
    by_cases hc : c.1 = j
    · simp [hc]
    · have hne : ¬ j = c.1 := Ne.symm hc
      simp only [Function.comp_apply, List.map_cons, List.mem_cons, hc, hne, if_false, false_or]

theorem Table.StoredAt.decommissionAll {callback : List (Nat × Results)} (hplaces : ∀ c ∈ callback, c.1 < 256)
    (hok : (callback.all fun c => c.2.succeed) = true) (hj : j < 256)
    (h : j ∉ callback.map Prod.fst → t.StoredAt j) : (t.decommissionAll callback).StoredAt j := by
  induction callback generalizing t with
  | nil => exact h List.not_mem_nil
  | cons c callback ih =>
    rw [List.all_cons, Bool.and_eq_true] at hok
    apply ih (fun c' hc' => hplaces c' (List.mem_cons_of_mem _ hc')) hok.2
    intro hrest
    apply Table.StoredAt.decommission (hplaces c List.mem_cons_self) hj hok.1
    intro hne
    exact h (by simp [hrest, Ne.symm hne])

/-- The table where `device_alloc` has taken a place. -/
def Table.alloc (t : Table) (i : Nat) (addr : BtAddrLe) (key : List UInt8) (seq : UInt32) : Table :=
  { t with devices := t.devices.modify i fun dev =>
    { dev with addr, seq, key := key.take 16, flags := FLAG_ACTIVE } }

theorem getElem?_alloc (t : Table) (i : Nat) (addr : BtAddrLe) (key : List UInt8) (seq : UInt32) (j : Nat) :
    (t.alloc i addr key seq).devices[j]? = t.devices[j]?.map fun dev =>
      if i = j then { dev with addr, seq, key := key.take 16, flags := FLAG_ACTIVE } else dev := by
  simp only [Table.alloc, List.getElem?_modify]
  split <;> simp

theorem TableInv.alloc (h : TableInv t) {addr : BtAddrLe} (hfind : deviceFind t.devices addr = none)
    (hi : i < 256) (key : List UInt8) (seq : UInt32) : TableInv (t.alloc i addr key seq) := by
  rw [deviceFind_eq_none_iff] at hfind
  have hcases : ∀ (j : Nat) dev', (t.alloc i addr key seq).devices[j]? = some dev' →
      (j = i ∧ dev'.addr = addr ∧ dev'.flags = FLAG_ACTIVE) ∨ (j ≠ i ∧ t.devices[j]? = some dev') := by
    intro j dev' hdev'
    rw [getElem?_alloc] at hdev'
    obtain ⟨dev, hdev, rfl⟩ := Option.map_eq_some_iff.mp hdev'
    by_cases hij : i = j
    · exact .inl ⟨hij.symm, by simp [hij], by simp [hij]⟩
    · exact .inr ⟨Ne.symm hij, by simpa [hij] using hdev⟩
  exact {
    flagged := by
      intro dev' hdev'
      obtain ⟨j, hj⟩ := List.mem_iff_getElem?.mp hdev'
      rcases hcases j dev' hj with ⟨-, -, hflags⟩ | ⟨-, hold⟩
      · exact .inr (.inl hflags)
      · exact h.flagged dev' (List.mem_of_getElem? hold)
    distinct := by
      intro j k dev dev' hj hactive hk hactive' haddr
      rcases hcases j dev hj with ⟨rfl, hnew, -⟩ | ⟨-, hold⟩ <;>
        rcases hcases k dev' hk with ⟨rfl, hnew', -⟩ | ⟨-, hold'⟩
      · rfl
      · exact absurd ⟨hactive', hnew ▸ haddr⟩ (hfind k dev' hold')
      · exact absurd ⟨hactive, hnew' ▸ haddr.symm⟩ (hfind j dev hold)
      · exact h.distinct j k dev dev' hold hactive hold' hactive' haddr
    low := by
      intro j dev hj hactive
      rcases hcases j dev hj with ⟨rfl, -, -⟩ | ⟨-, hold⟩
      · exact hi
      · exact h.low j dev hold hactive
    high := h.high }

theorem TableInv.settings (h : TableInv t) {settings : Settings}
    (hhigh : ∀ i, 256 ≤ i → settings.device i = none ∧ settings.seq i = none) :
    TableInv { t with settings } :=
  ⟨h.flagged, h.distinct, h.low, hhigh⟩

theorem storeNewDev_spec {settings : Settings} {dev : BtEnoceanDevice} (hi : i < 256)
    (hok : results.succeed = true) :
    settings.storeNewDev i dev results =
      ({ device := Function.update settings.device i (some ⟨dev.addr, dev.key⟩)
         seq := Function.update settings.seq i (some dev.seq) }, 0) := by
  simp only [Results.succeed, Bool.decide_and, Bool.and_eq_true, decide_eq_true_eq] at hok
  simp [Settings.storeNewDev, Settings.saveDevice, Settings.saveSeq, hok, encodeTag_of_lt hi]

def BtEnoceanDevice.clear (dev : BtEnoceanDevice) : BtEnoceanDevice :=
  { dev with flags := dev.flags &&& ~~~FLAG_DIRTY }

theorem active_dirty_of_flags {dev : BtEnoceanDevice} (h : dev.flags = FLAG_ACTIVE ||| FLAG_DIRTY) :
    dev.active = true ∧ dev.dirty = true := by
  simp only [BtEnoceanDevice.active, BtEnoceanDevice.dirty, h]
  decide

namespace BtEnoceanDevice.Flagged

variable {dev : BtEnoceanDevice}

theorem clear_active (h : dev.Flagged) : dev.clear.active = dev.active := by
  obtain h | h | h := h <;> simp only [active, clear, h] <;> decide

theorem clear_flagged (h : dev.Flagged) : dev.clear.Flagged := by
  obtain h | h | h := h <;> simp only [BtEnoceanDevice.Flagged, clear, h] <;> decide

theorem clear_clean (h : dev.Flagged) : dev.clear.dirty = false := by
  obtain h | h | h := h <;> simp only [dirty, clear, h] <;> decide

theorem clear_of_clean (h : dev.Flagged) (hclean : dev.dirty = false) : dev.clear = dev := by
  have hflags : dev.flags &&& ~~~FLAG_DIRTY = dev.flags := by
    obtain h | h | h := h <;> simp only [dirty, h] at hclean ⊢ <;> revert hclean <;> decide
  rw [clear, hflags]

theorem active_of_dirty (h : dev.Flagged) (hdirty : dev.dirty = true) : dev.active = true := by
  obtain h | h | h := h <;> simp only [dirty, active, h] at hdirty ⊢ <;> revert hdirty <;> decide

end BtEnoceanDevice.Flagged

section Work

variable {errs : Nat → Int} {devices : List BtEnoceanDevice} {settings : Settings} {err : Int}

theorem storeDirtyFrom_keeps (i : Nat) :
    (∀ (j : Nat) dev', (Table.storeDirtyFrom errs i devices settings err).1[j]? = some dev' →
      ∃ dev, devices[j]? = some dev ∧ (dev' = dev ∨ dev' = dev.clear)) ∧
      (Table.storeDirtyFrom errs i devices settings err).2.1.device = settings.device ∧
      ∀ k, 256 ≤ k → (Table.storeDirtyFrom errs i devices settings err).2.1.seq k = settings.seq k := by
  induction devices generalizing i settings err with
  | nil => exact ⟨fun j dev' h => (by cases h), rfl, fun _ _ => rfl⟩
  | cons dev rest ih =>
    rw [Table.storeDirtyFrom]
    split_ifs with hclean herr
    · obtain ⟨hrest, hdevice, hseq⟩ := @ih settings err (i + 1)
      refine ⟨fun j dev' hj => ?_, hdevice, hseq⟩
      cases j with
      | zero => exact ⟨dev, rfl, .inl (Option.some.inj hj).symm⟩
      | succ j => exact hrest j dev' hj
    · exact ⟨fun j dev' hj => ⟨dev', hj, .inl rfl⟩, rfl, fun _ _ => rfl⟩
    · obtain ⟨hrest, hdevice, hseq⟩ := @ih (settings.saveSeq i dev.seq) (errs i) (i + 1)
      refine ⟨fun j dev' hj => ?_, hdevice, fun k hk => (hseq k hk).trans ?_⟩
      · cases j with
        | zero => exact ⟨dev, rfl, .inr (Option.some.inj hj).symm⟩
        | succ j => exact hrest j dev' hj
      · have hne : k ≠ encodeTag i := fun heq => absurd (encodeTag_lt i) (by omega)
        exact Function.update_of_ne hne _ _

theorem storeDirtyFrom_all (i : Nat) (hok : ∀ j < devices.length, errs (i + j) = 0)
    (hflagged : ∀ dev ∈ devices, dev.Flagged)
    (hlow : ∀ (j : Nat) dev, devices[j]? = some dev → dev.dirty = true → i + j < 256) :
    (Table.storeDirtyFrom errs i devices settings err).1 = devices.map BtEnoceanDevice.clear ∧
      (∀ k < i, (Table.storeDirtyFrom errs i devices settings err).2.1.seq k = settings.seq k) ∧
      (∀ k, i + devices.length ≤ k → (Table.storeDirtyFrom errs i devices settings err).2.1.seq k =
        settings.seq k) ∧
      ∀ (j : Nat) dev, devices[j]? = some dev →
        (Table.storeDirtyFrom errs i devices settings err).2.1.seq (i + j) =
        if dev.dirty = true then some dev.seq else settings.seq (i + j) := by
  induction devices generalizing i settings err with
  | nil => exact ⟨rfl, fun _ _ => rfl, fun _ _ => rfl, fun j dev h => (by cases h)⟩
  | cons dev rest ih =>
    have hok' : ∀ j < rest.length, errs (i + 1 + j) = 0 := by
      intro j hj
      rw [Nat.add_assoc, Nat.add_comm 1 j]
      exact hok (j + 1) (Nat.succ_lt_succ hj)
    have hlow' : ∀ (j : Nat) dev, rest[j]? = some dev → dev.dirty = true → i + 1 + j < 256 := by
      intro j dev hj hdirty
      have := hlow (j + 1) dev hj hdirty
      omega
    have ih' := fun settings err =>
      @ih settings err (i + 1) hok' (fun d hd => hflagged d (List.mem_cons_of_mem _ hd)) hlow'
    have hdev := hflagged dev List.mem_cons_self
    rw [Table.storeDirtyFrom]
    by_cases hclean : dev.dirty = false
    · rw [if_pos hclean]
      obtain ⟨hmap, hbelow, habove, hat⟩ := ih' settings err
      refine ⟨?_, fun k hk => hbelow k (by omega), fun k hk => habove k (by simp at hk; omega),
        fun j d hj => ?_⟩
      · simp only [List.map_cons, hdev.clear_of_clean hclean, hmap]
      · cases j with
        | zero =>
          obtain rfl : dev = d := Option.some.inj hj
          rw [if_neg (by simp [hclean])]
          exact hbelow i (Nat.lt_succ_self i)
        | succ j =>
          rw [show i + (j + 1) = i + 1 + j by omega]
          exact hat j d hj
    · have hdirty : dev.dirty = true := by simpa using hclean
      have hi : i < 256 := by simpa using hlow 0 dev rfl hdirty
      have hzero : errs i = 0 := by simpa using hok 0 (by simp)
      rw [if_neg hclean, if_neg (not_not.mpr hzero)]
      obtain ⟨hmap, hbelow, habove, hat⟩ := ih' (settings.saveSeq i dev.seq) (errs i)
      have hsaved : ∀ k, k ≠ i → (settings.saveSeq i dev.seq).seq k = settings.seq k := by
        intro k hk
        simp [Settings.saveSeq, encodeTag_of_lt hi, Function.update_of_ne hk]
      refine ⟨?_, fun k hk => (hbelow k (by omega)).trans (hsaved k (by omega)),
        fun k hk => (habove k (by simp at hk; omega)).trans (hsaved k (by simp at hk; omega)),
          fun j d hj => ?_⟩
      · simp only [List.map_cons, hmap, BtEnoceanDevice.clear]
      · cases j with
        | zero =>
          obtain rfl : dev = d := Option.some.inj hj
          rw [if_pos hdirty]
          refine (hbelow i (Nat.lt_succ_self i)).trans ?_
          simp [Settings.saveSeq, encodeTag_of_lt hi]
        | succ j =>
          rw [show i + (j + 1) = i + 1 + j by omega, ← hsaved (i + 1 + j) (by omega)]
          exact hat j d hj

theorem TableInv.storeDirty (h : TableInv t) : TableInv (t.storeDirty errs err) := by
  obtain ⟨hrest, hdevice, hseq⟩ := @storeDirtyFrom_keeps errs t.devices t.settings err 0
  have hfrom : ∀ (j : Nat) dev', (t.storeDirty errs err).devices[j]? = some dev' →
      ∃ dev, t.devices[j]? = some dev ∧ dev'.active = dev.active ∧ dev'.addr = dev.addr ∧ dev'.Flagged := by
    intro j dev' hj
    obtain ⟨dev, hdev, hcases⟩ := hrest j dev' hj
    have hflagged := h.flagged dev (List.mem_of_getElem? hdev)
    rcases hcases with rfl | rfl
    · exact ⟨dev', hdev, rfl, rfl, hflagged⟩
    · exact ⟨dev, hdev, hflagged.clear_active, rfl, hflagged.clear_flagged⟩
  exact {
    flagged := by
      intro dev' hdev'
      obtain ⟨j, hj⟩ := List.mem_iff_getElem?.mp hdev'
      exact (hfrom j dev' hj).elim fun dev hdev => hdev.2.2.2
    distinct := by
      intro i j dev dev' hi hactive hj hactive' haddr
      obtain ⟨d, hd, hda, hdaddr, -⟩ := hfrom i dev hi
      obtain ⟨d', hd', hda', hdaddr', -⟩ := hfrom j dev' hj
      exact h.distinct i j d d' hd (hda ▸ hactive) hd' (hda' ▸ hactive') (by rw [← hdaddr, haddr, hdaddr'])
    low := by
      intro i dev hi hactive
      obtain ⟨d, hd, hda, -⟩ := hfrom i dev hi
      exact h.low i d hd (hda ▸ hactive)
    high := fun i hi => ⟨by rw [show
      (t.storeDirty errs err).settings.device = _ from hdevice]; exact (h.high i hi).1,
      (hseq i hi).trans (h.high i hi).2⟩ }

end Work

end Places

end SdkNrf.Enocean
