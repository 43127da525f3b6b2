import SdkNrf.Enocean.Adv

/-!
# Which advertisements are read inside the buffer

The lengths in an advertisement are those that its sender announces.
-/

namespace SdkNrf.Enocean

section Pulls

variable {len : Nat} {buf : List UInt8}

theorem pullMem_of_le (h : len ≤ buf.length) : pullMem len buf = some (buf, buf.drop len) :=
  if_neg (not_lt.mpr h)

theorem pullMem_of_lt (h : buf.length < len) : pullMem len buf = none := if_pos h

theorem pullU8_of_le (h : 1 ≤ buf.length) : pullU8 buf = some (buf.getD 0 0, buf.drop 1) := by
  rw [pullU8, pullMem_of_le h, Option.map_some]

theorem pullU8_of_lt (h : buf.length < 1) : pullU8 buf = none := by
  rw [pullU8, pullMem_of_lt h, Option.map_none]

theorem pullLe16_of_le (h : 2 ≤ buf.length) :
    pullLe16 buf = some (UInt16.ofNat (leValue (buf.take 2)), buf.drop 2) := by
  rw [pullLe16, pullMem_of_le h, Option.map_some]

theorem pullLe16_of_lt (h : buf.length < 2) : pullLe16 buf = none := by
  rw [pullLe16, pullMem_of_lt h, Option.map_none]

theorem pullLe32_of_le (h : 4 ≤ buf.length) :
    pullLe32 buf = some (UInt32.ofNat (leValue (buf.take 4)), buf.drop 4) := by
  rw [pullLe32, pullMem_of_le h, Option.map_some]

theorem pullLe32_of_lt (h : buf.length < 4) : pullLe32 buf = none := by
  rw [pullLe32, pullMem_of_lt h, Option.map_none]

end Pulls

def entryType (buf : List UInt8) : UInt8 := buf.getD 0 0 &&& 0x3f

def entrySize (buf : List UInt8) : Nat :=
  if buf.getD 0 0 >>> 6 = 3 ∨ entryType buf = DATA_TYPE_OPTIONAL_DATA then 2 + (buf.getD 1 0).toNat
  else if entryType buf = DATA_TYPE_COMMISSIONING then 23
  else if buf.getD 0 0 >>> 6 = 0 then 2
  else if buf.getD 0 0 >>> 6 = 1 then 3
  else 5

/-- The entries end inside the buffer, until there are less than six bytes left or there is one for
commissioning. If a signature is left, then what it covers is in the payload. -/
inductive EntriesFit (totLen payloadLen : Nat) : List UInt8 → Prop
  | rest {buf} : buf.length < 2 + SIGNATURE_LEN →
    (buf.length = SIGNATURE_LEN → totLen ≤ payloadLen) → EntriesFit totLen payloadLen buf
  | commissioning {buf} : 2 + SIGNATURE_LEN ≤ buf.length → entryType buf = DATA_TYPE_COMMISSIONING →
      entrySize buf ≤ buf.length → EntriesFit totLen payloadLen buf
  | entry {buf} : 2 + SIGNATURE_LEN ≤ buf.length → entryType buf ≠ DATA_TYPE_COMMISSIONING →
    entrySize buf ≤ buf.length →
      EntriesFit totLen payloadLen (buf.drop (entrySize buf)) → EntriesFit totLen payloadLen buf

section Entries

variable {env : Surroundings} {buf : List UInt8} {totLen payloadLen fuel : Nat}

theorem two_le_entrySize (buf : List UInt8) : 2 ≤ entrySize buf := by
  rw [entrySize]
  split_ifs <;> omega

theorem getD_drop (buf : List UInt8) (i j : Nat) : (buf.drop i).getD j 0 = buf.getD (i + j) 0 := by
  simp [List.getD_eq_getElem?_getD, List.getElem?_drop]

theorem dataEntryPull_of_lt (h : buf.length < entrySize buf) : dataEntryPull env buf = none := by
  by_cases hempty : buf.length < 1
  · rw [dataEntryPull, pullU8_of_lt hempty, Option.bind_none]
  · have hlen : (buf.drop 1).length = buf.length - 1 := List.length_drop
    rw [dataEntryPull, pullU8_of_le (not_lt.mp hempty), Option.bind_some]
    simp only [show buf.getD 0 0 &&& 0x3f = entryType buf from rfl]
    rw [entrySize] at h
    by_cases hvar : buf.getD 0 0 >>> 6 = 3 ∨ entryType buf = DATA_TYPE_OPTIONAL_DATA
    · rw [if_pos hvar] at h ⊢
      by_cases hone : buf.length < 2
      · rw [pullU8_of_lt (by omega), Option.bind_none]
      · rw [pullU8_of_le (by omega), Option.bind_some, getD_drop, Nat.add_zero, pullMem_of_lt,
          Option.map_none]
        simp only [List.length_drop]
        omega
    · rw [if_neg hvar] at h ⊢
      by_cases hcomm : entryType buf = DATA_TYPE_COMMISSIONING
      · rw [if_pos hcomm] at h ⊢
        rw [pullMem_of_lt (by omega), Option.map_none]
      · rw [if_neg hcomm] at h ⊢
        by_cases h0 : buf.getD 0 0 >>> 6 = 0
        · rw [if_pos h0] at h ⊢
          rw [pullU8_of_lt (by omega), Option.map_none]
        · rw [if_neg h0] at h ⊢
          by_cases h1 : buf.getD 0 0 >>> 6 = 1
          · rw [if_pos h1] at h ⊢
            rw [pullLe16_of_lt (by omega), Option.map_none]
          · rw [if_neg h1] at h ⊢
            rw [pullLe32_of_lt (by omega), Option.map_none]

theorem dataEntryPull_of_le (env : Surroundings) (h : entrySize buf ≤ buf.length) :
    ∃ entry, dataEntryPull env buf = some (entry, buf.drop (entrySize buf)) ∧ entry.type = entryType buf ∧
      (entryType buf = DATA_TYPE_COMMISSIONING →
        entry.pointer = if buf.getD 0 0 >>> 6 = 3 then buf.drop 2 else buf.drop 1) := by
  have htwo := two_le_entrySize buf
  have hlen : (buf.drop 1).length = buf.length - 1 := List.length_drop
  rw [dataEntryPull, pullU8_of_le (by omega), Option.bind_some]
  simp only [show buf.getD 0 0 &&& 0x3f = entryType buf from rfl]
  rw [entrySize] at h ⊢
  by_cases hvar : buf.getD 0 0 >>> 6 = 3 ∨ entryType buf = DATA_TYPE_OPTIONAL_DATA
  · rw [if_pos hvar] at h ⊢
    rw [if_pos hvar, pullU8_of_le (by omega), Option.bind_some, getD_drop, Nat.add_zero, List.drop_drop,
      pullMem_of_le (by simp only [List.length_drop]; omega), Option.map_some, List.drop_drop]
    refine ⟨_, rfl, rfl, fun hcomm => ?_⟩
    have hthree : buf.getD 0 0 >>> 6 = 3 := by
      apply hvar.resolve_right
      rw [hcomm]
      decide
    rw [if_pos hthree]
  · have hthree : ¬ buf.getD 0 0 >>> 6 = 3 := fun hthree => hvar (Or.inl hthree)
    rw [if_neg hvar] at h ⊢
    rw [if_neg hvar, if_neg hthree]
    by_cases hcomm : entryType buf = DATA_TYPE_COMMISSIONING
    · rw [if_pos hcomm] at h ⊢
      rw [if_pos hcomm, pullMem_of_le (by omega), Option.map_some, List.drop_drop]
      exact ⟨_, rfl, rfl, fun _ => rfl⟩
    · rw [if_neg hcomm] at h ⊢
      rw [if_neg hcomm]
      by_cases h0 : buf.getD 0 0 >>> 6 = 0
      · rw [if_pos h0] at h ⊢
        rw [if_pos h0, pullU8_of_le (by omega), Option.map_some, List.drop_drop]
        exact ⟨_, rfl, rfl, (absurd · hcomm)⟩
      · rw [if_neg h0] at h ⊢
        rw [if_neg h0]
        by_cases h1 : buf.getD 0 0 >>> 6 = 1
        · rw [if_pos h1] at h ⊢
          rw [if_pos h1, pullLe16_of_le (by omega), Option.map_some, List.drop_drop]
          exact ⟨_, rfl, rfl, (absurd · hcomm)⟩
        · rw [if_neg h1] at h ⊢
          rw [if_neg h1, pullLe32_of_le (by omega), Option.map_some, List.drop_drop]
          exact ⟨_, rfl, rfl, (absurd · hcomm)⟩

theorem entriesFit_short (h : buf.length < 2 + SIGNATURE_LEN) :
    EntriesFit totLen payloadLen buf ↔ (buf.length = SIGNATURE_LEN → totLen ≤ payloadLen) := by
  constructor
  · intro hfit
    cases hfit with
    | rest _ hsig => exact hsig
    | commissioning hlong => omega
    | entry hlong => omega
  · exact EntriesFit.rest h

theorem entriesFit_commissioning (h : ¬ buf.length < 2 + SIGNATURE_LEN)
    (hcomm : entryType buf = DATA_TYPE_COMMISSIONING) :
    EntriesFit totLen payloadLen buf ↔ entrySize buf ≤ buf.length := by
  constructor
  · intro hfit
    cases hfit with
    | rest hshort => exact absurd hshort h
    | commissioning _ _ hle => exact hle
    | entry _ _ hle => exact hle
  · exact EntriesFit.commissioning (not_lt.mp h) hcomm

theorem entriesFit_entry (h : ¬ buf.length < 2 + SIGNATURE_LEN)
    (hcomm : entryType buf ≠ DATA_TYPE_COMMISSIONING) :
    EntriesFit totLen payloadLen buf ↔
      entrySize buf ≤ buf.length ∧ EntriesFit totLen payloadLen (buf.drop (entrySize buf)) := by
  constructor
  · intro hfit
    cases hfit with
    | rest hshort => exact absurd hshort h
    | commissioning _ heq => exact absurd heq hcomm
    | entry _ _ hle hrest => exact ⟨hle, hrest⟩
  · rintro ⟨hle, hrest⟩
    exact EntriesFit.entry (not_lt.mp h) hcomm hle hrest

theorem sensorEntries_iff (totLen payloadLen : Nat) {next : Option (List UInt8 × Collected) → Option Handled}
    (hnone : (next none).isSome)
    (hsome : ∀ buf collected, buf.length < 2 + SIGNATURE_LEN →
      ((next (some (buf, collected))).isSome ↔ (buf.length = SIGNATURE_LEN → totLen ≤ payloadLen)))
    {collected : Collected} (hfuel : buf.length ≤ fuel) :
    ((sensorEntries env fuel buf collected).bind next).isSome ↔ EntriesFit totLen payloadLen buf := by
  induction fuel generalizing buf collected with
  | zero =>
    have hshort : buf.length < 2 + SIGNATURE_LEN := by omega
    rw [sensorEntries, if_pos hshort, Option.bind_some, hsome _ _ hshort, entriesFit_short hshort]
  | succ fuel ih =>
    rw [sensorEntries]
    by_cases hshort : buf.length < 2 + SIGNATURE_LEN
    · rw [if_pos hshort, Option.bind_some, hsome _ _ hshort, entriesFit_short hshort]
    · rw [if_neg hshort]
      by_cases hle : entrySize buf ≤ buf.length
      · obtain ⟨entry, hpull, htype, -⟩ := dataEntryPull_of_le env hle
        simp only [hpull, Option.bind_some, htype]
        by_cases hcomm : entryType buf = DATA_TYPE_COMMISSIONING
        · rw [if_pos hcomm, Option.bind_some, entriesFit_commissioning hshort hcomm]
          exact iff_of_true hnone hle
        · have htwo := two_le_entrySize buf
          rw [if_neg hcomm, entriesFit_entry hshort hcomm, ih (by rw [List.length_drop]; omega)]
          exact (and_iff_right hle).symm
      · rw [dataEntryPull_of_lt (not_le.mp hle), Option.bind_none, Option.bind_none]
        apply iff_of_false (by simp)
        intro hfit
        by_cases hcomm : entryType buf = DATA_TYPE_COMMISSIONING
        · exact hle ((entriesFit_commissioning hshort hcomm).mp hfit)
        · exact hle ((entriesFit_entry hshort hcomm).mp hfit).1

end Entries

def seqOf (payload : List UInt8) : UInt32 := UInt32.ofNat (leValue ((payload.drop 4).take 4))

def SwitchFits (env : Surroundings) (devices : List BtEnoceanDevice) (addr : BtAddrLe)
    (payload : List UInt8) :
    Prop :=
  env.button = true → ∀ i dev, knownDevice devices addr = some (i, dev) → dev.seq < seqOf payload →
    13 ≤ payload.length

/-- A sensor message of an unknown device has one complete entry, with a key if it is taken from there; one of
a known device that is new has complete entries. -/
def SensorFits (env : Surroundings) (devices : List BtEnoceanDevice) (addr : BtAddrLe) (payload : List UInt8)
    (totLen : Nat) : Prop :=
  env.sensor = true →
    (deviceFind devices addr = none →
      entrySize (payload.drop 8) ≤ (payload.drop 8).length ∧
        (entryType (payload.drop 8) = DATA_TYPE_COMMISSIONING → env.commissioning = true →
          (freeSlot devices).isSome → (payload.drop 8).getD 0 0 >>> 6 = 3 → 18 ≤ (payload.drop 8).length)) ∧
    ∀ i dev, knownDevice devices addr = some (i, dev) → dev.seq < seqOf payload →
      EntriesFit totLen payload.length (payload.drop 8)

section Messages

variable {env : Surroundings} {devices : List BtEnoceanDevice} {addr : BtAddrLe} {rssi : Int8} {seq : UInt32}
  {key payload : List UInt8} {i totLen : Nat}

theorem deviceFind_lt (h : deviceFind devices addr = some i) : i < devices.length :=
  (List.findIdx?_eq_some_iff_getElem.mp h).1

theorem knownDevice_eq_none_iff : knownDevice devices addr = none ↔ deviceFind devices addr = none := by
  rw [knownDevice]
  cases hfind : deviceFind devices addr with
  | none => simp
  | some i => simp [List.getElem?_eq_getElem (deviceFind_lt hfind)]

theorem btEnoceanCommission_isSome_iff : (btEnoceanCommission env devices addr key seq).isSome ↔
    (deviceFind devices addr = none → (freeSlot devices).isSome → 16 ≤ key.length) := by
  rw [btEnoceanCommission]
  cases deviceFind devices addr with
  | some i => simp
  | none =>
    cases freeSlot devices with
    | none => simp
    | some i =>
      by_cases hkey : key.length < 16
      · simp [hkey]
      · simp only [if_neg hkey]
        apply iff_of_true
        · split_ifs <;> rfl
        · exact fun _ _ => not_lt.mp hkey

theorem auth_of_le {dev : BtEnoceanDevice} {signature : List UInt8} {len : Nat} (hlen : len ≤ payload.length)
    (hsig : SIGNATURE_LEN ≤ signature.length) :
    auth env dev seq signature payload len =
      some (env.ccmDecrypt dev.key (dev.addr.val, seq) (payload.take len)
        (signature.take SIGNATURE_LEN)) := by
  rw [auth, if_neg]
  rintro (h | h)
  · exact absurd hlen (not_le.mpr h)
  · exact absurd hsig (not_le.mpr h)

theorem auth_of_lt {dev : BtEnoceanDevice} {signature : List UInt8} {len : Nat}
    (hlen : payload.length < len) :
    auth env dev seq signature payload len = none := if_pos (Or.inl hlen)

theorem handleSwitchData_isSome_iff (hlen : 9 ≤ payload.length) (hstatus : payload.getD 8 0 &&& 0xe0 = 0) :
    (handleSwitchData env devices addr rssi (payload.drop 4) payload).isSome ↔
      SwitchFits env devices addr payload := by
  rw [handleSwitchData, SwitchFits]
  cases env.button with
  | false => simp
  | true =>
    cases hknown : knownDevice devices addr with
    | none => simp
    | some known =>
      obtain ⟨i, dev⟩ := known
      have hiff : (∀ j d, some (i, dev) = some (j, d) → d.seq < seqOf payload → 13 ≤ payload.length) ↔
          (dev.seq < seqOf payload → 13 ≤ payload.length) := by
        constructor
        · exact fun h => h i dev rfl
        · rintro h j d ⟨⟩
          exact h
      simp only [Bool.true_eq_false, if_false, pullLe32_of_le (by simp; omega : 4 ≤ (payload.drop 4).length),
        Option.bind_some, show UInt32.ofNat (leValue ((payload.drop 4).take 4)) = seqOf payload from rfl,
        List.drop_drop, hiff, true_implies]
      by_cases hold : seqOf payload ≤ dev.seq
      · rw [if_pos hold]
        exact iff_of_true rfl fun hnew => absurd hold (UInt32.not_le.mpr hnew)
      · rw [if_neg hold, pullU8_of_le (by simp; omega), Option.bind_some]
        simp only [getD_drop, List.drop_drop, hstatus]
        rw [if_neg (not_not.mpr rfl)]
        have hrest : (payload.drop (4 + 4 + 1)).length = payload.length - 9 := List.length_drop
        by_cases hsig : (payload.drop (4 + 4 + 1)).length < SIGNATURE_LEN
        · rw [if_pos hsig]
          rw [hrest, SIGNATURE_LEN] at hsig
          apply iff_of_false (by simp)
          intro h
          have := h (UInt32.not_le.mp hold)
          omega
        · rw [if_neg hsig]
          apply iff_of_true
          · by_cases hopt : (payload.drop (4 + 4 + 1)).length - SIGNATURE_LEN ∉ [0, 1, 2, 4]
            · rw [if_pos hopt]
              rfl
            · have hrest' : ((payload.drop (4 + 4 + 1)).drop
                ((payload.drop (4 + 4 + 1)).length - SIGNATURE_LEN)).length =
                  SIGNATURE_LEN := by
                rw [List.length_drop]
                omega
              rw [if_neg hopt, pullMem_of_le (Nat.sub_le _ _), Option.bind_some]
              simp only [pullMem_of_le hrest'.ge, Option.bind_some]
              rw [auth_of_le (by rw [hrest, SIGNATURE_LEN] at hsig ⊢; omega) hrest'.ge, Option.map_some]
              rfl
          · intro _
            rw [hrest, SIGNATURE_LEN] at hsig
            omega

theorem entrySize_commissioning {buf : List UInt8} (hcomm : entryType buf = DATA_TYPE_COMMISSIONING)
    (hshort : ¬ buf.getD 0 0 >>> 6 = 3) : entrySize buf = 23 := by
  rw [entrySize, if_neg, if_pos hcomm]
  rintro (h | h)
  · exact hshort h
  · rw [hcomm] at h
    exact absurd h (by decide)

theorem newSensor_isSome_iff {buf : List UInt8} (hfind : deviceFind devices addr = none) :
    ((dataEntryPull env buf).bind fun (entry, _) =>
      if entry.type ≠ DATA_TYPE_COMMISSIONING ∨
        env.commissioning = false then some (devices, ([] : List Call))
      else (btEnoceanCommission env devices addr entry.pointer seq).map Prod.fst).isSome ↔
      entrySize buf ≤ buf.length ∧ (entryType buf = DATA_TYPE_COMMISSIONING → env.commissioning = true →
        (freeSlot devices).isSome → buf.getD 0 0 >>> 6 = 3 → 18 ≤ buf.length) := by
  by_cases hle : entrySize buf ≤ buf.length
  · obtain ⟨entry, hpull, htype, hpointer⟩ := dataEntryPull_of_le env hle
    rw [hpull, Option.bind_some, and_iff_right hle]
    simp only [htype]
    by_cases hcomm : entryType buf = DATA_TYPE_COMMISSIONING
    · have hptr := hpointer hcomm
      cases hmode : env.commissioning with
      | false => simp
      | true =>
        rw [if_neg (by simp [hcomm]), Option.isSome_map, btEnoceanCommission_isSome_iff, hptr]
        by_cases hthree : buf.getD 0 0 >>> 6 = 3
        · rw [if_pos hthree, List.length_drop]
          constructor
          · intro h _ _ hfree _
            have := h hfind hfree
            omega
          · intro h _ hfree
            have := h hcomm rfl hfree hthree
            omega
        · rw [entrySize_commissioning hcomm hthree] at hle
          rw [if_neg hthree, List.length_drop]
          exact iff_of_true (fun _ _ => by omega) fun _ _ _ h => absurd h hthree
    · rw [if_pos (Or.inl hcomm)]
      exact iff_of_true rfl fun h => absurd h hcomm
  · rw [dataEntryPull_of_lt (not_le.mp hle), Option.bind_none]
    exact iff_of_false (by simp) fun h => hle h.1

theorem handleSensorData_isSome_iff (hlen : 8 ≤ payload.length) :
    (handleSensorData env devices addr rssi (payload.drop 4) payload totLen).isSome ↔
      SensorFits env devices addr payload totLen := by
  rw [handleSensorData, SensorFits]
  cases env.sensor with
  | false => simp
  | true =>
    have hfour : 4 ≤ (payload.drop 4).length := by
      rw [List.length_drop]
      omega
    simp only [Bool.true_eq_false, if_false, pullLe32_of_le hfour, Option.bind_some, List.drop_drop,
      show UInt32.ofNat (leValue ((payload.drop 4).take 4)) = seqOf payload from rfl, true_implies,
      Nat.reduceAdd]
    cases hknown : knownDevice devices addr with
    | none =>
      have hfind := knownDevice_eq_none_iff.mp hknown
      rw [newSensor_isSome_iff hfind]
      simp [hfind]
    | some known =>
      obtain ⟨i, dev⟩ := known
      have hfind : deviceFind devices addr ≠ none := by
        rw [Ne, ← knownDevice_eq_none_iff, hknown]
        exact Option.some_ne_none _
      have hiff : ((deviceFind devices addr = none →
          entrySize (payload.drop 8) ≤ (payload.drop 8).length ∧
            (entryType (payload.drop 8) = DATA_TYPE_COMMISSIONING → env.commissioning = true →
              (freeSlot devices).isSome → (payload.drop 8).getD 0 0 >>> 6 = 3 →
                18 ≤ (payload.drop 8).length)) ∧
          ∀ j d, some (i, dev) = some (j, d) → d.seq < seqOf payload →
            EntriesFit totLen payload.length (payload.drop 8)) ↔
          (dev.seq < seqOf payload → EntriesFit totLen payload.length (payload.drop 8)) := by
        constructor
        · exact fun h => h.2 i dev rfl
        · intro h
          refine ⟨fun hnone => absurd hnone hfind, ?_⟩
          rintro j d ⟨⟩
          exact h
      rw [hiff]
      by_cases hold : seqOf payload ≤ dev.seq
      · simp only [if_pos hold]
        exact iff_of_true rfl fun hnew => absurd hold (UInt32.not_le.mpr hnew)
      · simp only [if_neg hold]
        rw [sensorEntries_iff totLen payload.length rfl _ le_rfl]
        · exact ⟨fun h _ => h, fun h => h (UInt32.not_le.mp hold)⟩
        · intro buf collected hshort
          by_cases hsig : buf.length = SIGNATURE_LEN
          · simp only [if_neg (not_not.mpr hsig), pullMem_of_le hsig.ge, Option.bind_some]
            by_cases htot : totLen ≤ payload.length
            · rw [auth_of_le htot hsig.ge]
              exact iff_of_true rfl fun _ => htot
            · rw [auth_of_lt (not_le.mp htot)]
              exact iff_of_false (by simp) fun h => htot (h hsig)
          · simp only [if_pos (show buf.length ≠ SIGNATURE_LEN from hsig)]
            exact iff_of_true rfl fun h => absurd h hsig

theorem sensorFits_of_new (hfind : deviceFind devices addr = none) (hlen : 26 ≤ payload.length) :
    SensorFits env devices addr payload totLen ↔
      (env.sensor = true → entrySize (payload.drop 8) ≤ (payload.drop 8).length) := by
  have hknown := knownDevice_eq_none_iff.mpr hfind
  have hrest : (payload.drop 8).length = payload.length - 8 := List.length_drop
  rw [SensorFits]
  constructor
  · exact fun h hsensor => ((h hsensor).1 hfind).1
  · intro h hsensor
    refine ⟨fun _ => ⟨h hsensor, fun _ _ _ _ => by omega⟩, fun i dev heq => ?_⟩
    rw [hknown] at heq
    cases heq

end Messages

section Commissioning

variable {env : Surroundings} {devices : List BtEnoceanDevice} {addr : BtAddrLe} {seq : UInt32}
  {key payload : List UInt8} {i : Nat} {dev : BtEnoceanDevice}

theorem deviceFind_eq_none_iff : deviceFind devices addr = none ↔
    ∀ (j : Nat) (dev : BtEnoceanDevice), devices[j]? = some dev →
        ¬ (dev.active = true ∧ addr = dev.addr) := by
  rw [deviceFind, List.findIdx?_eq_none_iff]
  constructor
  · intro h j dev hj
    simpa using h dev (List.mem_of_getElem? hj)
  · intro h dev hmem
    obtain ⟨j, hj⟩ := List.mem_iff_getElem?.mp hmem
    simpa using h j dev hj

theorem freeSlot_eq_some (h : freeSlot devices = some i) :
    ∃ dev, devices[i]? = some dev ∧ dev.active = false := by
  obtain ⟨hi, hfree, -⟩ := List.findIdx?_eq_some_iff_getElem.mp h
  exact ⟨devices[i], List.getElem?_eq_getElem hi, by simpa using hfree⟩

theorem deviceFind_eq_some (h : deviceFind devices addr = some i) :
    ∃ dev, devices[i]? = some dev ∧ dev.active = true ∧ addr = dev.addr := by
  obtain ⟨hi, hdev, -⟩ := List.findIdx?_eq_some_iff_getElem.mp h
  exact ⟨devices[i], List.getElem?_eq_getElem hi, by simpa using hdev⟩

theorem knownDevice_commissioned (hfind : deviceFind devices addr = none) (hi : devices[i]? = some dev)
    {f : BtEnoceanDevice → BtEnoceanDevice} (hactive : (f dev).active = true) (haddr : addr = (f dev).addr) :
    knownDevice (devices.modify i f) addr = some (i, f dev) := by
  have hget : (devices.modify i f)[i]? = some (f dev) := by simp [hi]
  rw [deviceFind_eq_none_iff] at hfind
  cases hone : deviceFind (devices.modify i f) addr with
  | none => exact absurd ⟨hactive, haddr⟩ (deviceFind_eq_none_iff.mp hone i (f dev) hget)
  | some j =>
    obtain ⟨other, hother, hmatch⟩ := deviceFind_eq_some hone
    have hji : j = i := by
      by_contra hne
      rw [List.getElem?_modify_ne f devices (Ne.symm hne)] at hother
      exact hfind j other hother hmatch
    rw [knownDevice, hone, Option.bind_some, hji, hget, Option.map_some]

theorem deviceFind_rejected (hfind : deviceFind devices addr = none) {f : BtEnoceanDevice → BtEnoceanDevice}
    (hactive : ∀ dev, (f dev).active = false) : deviceFind (devices.modify i f) addr = none := by
  rw [deviceFind_eq_none_iff] at hfind ⊢
  intro j other hj
  by_cases hji : i = j
  · subst hji
    rw [List.getElem?_modify_eq, Option.map_eq_map, Option.map_eq_some_iff] at hj
    obtain ⟨before, -, rfl⟩ := hj
    rw [hactive]
    exact fun h => absurd h.1 Bool.false_ne_true
  · rw [List.getElem?_modify_ne f devices hji] at hj
    exact hfind j other hj

theorem btEnoceanCommission_refused (env : Surroundings) (key : List UInt8) (seq : UInt32)
    (h : deviceFind devices addr = none → freeSlot devices = none) :
    ∃ err, err ≠ 0 ∧ btEnoceanCommission env devices addr key seq = some ((devices, []), err) := by
  rw [btEnoceanCommission]
  cases hfind : deviceFind devices addr with
  | some i => exact ⟨-EEXIST, by decide, rfl⟩
  | none =>
    rw [h hfind]
    exact ⟨-ENOMEM, by decide, rfl⟩

theorem btEnoceanCommission_rejected (seq : UInt32) (hfind : deviceFind devices addr = none)
    (hfree : freeSlot devices = some i)
    (hkey : 16 ≤ key.length) (hrejects : env.commissioned = true ∧ env.rejects = true) :
    ∃ devices' calls err, err ≠ 0 ∧
        btEnoceanCommission env devices addr key seq = some ((devices', calls), err) ∧
      deviceFind devices' addr = none := by
  rw [btEnoceanCommission]
  simp only [hfind, hfree, if_neg (not_lt.mpr hkey), if_pos hrejects]
  refine ⟨_, _, -ECANCELED, by decide, rfl, ?_⟩
  rw [List.modify_modify_eq]
  apply deviceFind_rejected hfind
  intro dev
  change decide ((0 : UInt8) &&& FLAG_ACTIVE ≠ 0) = false
  decide

theorem btEnoceanCommission_taken (seq : UInt32) (hfind : deviceFind devices addr = none)
    (hfree : freeSlot devices = some i)
    (hkey : 16 ≤ key.length) (hrejects : ¬ (env.commissioned = true ∧ env.rejects = true)) :
    ∃ devices' calls err dev, btEnoceanCommission env devices addr key seq = some ((devices', calls), err) ∧
      knownDevice devices' addr = some (i, dev) ∧ dev.seq = seq := by
  obtain ⟨dev, hi, -⟩ := freeSlot_eq_some hfree
  have hactive : decide (FLAG_ACTIVE &&& FLAG_ACTIVE ≠ 0) = true := by decide
  have hknown := knownDevice_commissioned hfind hi
    (f := fun dev => { dev with addr, seq, key := key.take 16, flags := FLAG_ACTIVE }) hactive rfl
  rw [btEnoceanCommission]
  simp only [hfind, hfree, if_neg (not_lt.mpr hkey), if_neg hrejects]
  by_cases hstore : env.storeErr ≠ 0
  · exact ⟨_, _, _, _, if_pos hstore, hknown, rfl⟩
  · exact ⟨_, _, _, _, if_neg hstore, hknown, rfl⟩

end Commissioning

def Taken (env : Surroundings) (devices : List BtEnoceanDevice) (addr : BtAddrLe) : Prop :=
  deviceFind devices addr = none ∧ (freeSlot devices).isSome ∧
    ¬ (env.commissioned = true ∧ env.rejects = true)

/-- The manufacturer data of a message without a shortened name fit: the byte that tells switches from sensors
is there, and what the message is taken for. -/
structure DataFits (env : Surroundings) (devices : List BtEnoceanDevice) (addr : BtAddrLe)
    (payload : List UInt8)
    (len : UInt8) : Prop where
  status : 9 ≤ payload.length
  switch : payload.getD 8 0 &&& 0xe0 = 0 ∧ 12 ≤ len ∧ len ≤ 16 → SwitchFits env devices addr payload
  key : ¬ (payload.getD 8 0 &&& 0xe0 = 0 ∧ 12 ≤ len ∧ len ≤ 16) → len = 29 → env.commissioning = true →
    24 ≤ payload.length
  sensor : ¬ (payload.getD 8 0 &&& 0xe0 = 0 ∧ 12 ≤ len ∧ len ≤ 16) →
    ¬ (len = 29 ∧ env.commissioning = true ∧ payload.length = 30 ∧ Taken env devices addr) →
      3 ≤ len.toNat ∧ SensorFits env devices addr payload (len.toNat - 3)

section Advertisements

variable {env : Surroundings} {devices : List BtEnoceanDevice} {addr : BtAddrLe} {rssi : Int8} {seq : UInt32}
  {key payload : List UInt8} {len : UInt8} {i : Nat} {dev : BtEnoceanDevice} {calls : List Call}

/-- What `adv_recv` does with a message that is not, or not successfully, a commissioning of a switch. -/
def asSensor (env : Surroundings) (devices : List BtEnoceanDevice) (addr : BtAddrLe) (rssi : Int8)
    (buf payload : List UInt8) (len : UInt8) (calls : List Call) : Option Handled :=
  if len.toNat + 1 < SIGNATURE_LEN then none
  else
    (handleSensorData env devices addr rssi buf payload (len.toNat + 1 - SIGNATURE_LEN)).map
      fun (devices, more) => (devices, calls ++ more)

theorem asSensor_isSome_iff (hlen : 8 ≤ payload.length) :
    (asSensor env devices addr rssi (payload.drop 4) payload len calls).isSome ↔
      3 ≤ len.toNat ∧ SensorFits env devices addr payload (len.toNat - 3) := by
  rw [asSensor]
  by_cases hshort : len.toNat + 1 < SIGNATURE_LEN
  · rw [if_pos hshort]
    rw [SIGNATURE_LEN] at hshort
    exact iff_of_false (by simp) fun h => absurd h.1 (by omega)
  · have hlong : 3 ≤ len.toNat := by
      rw [SIGNATURE_LEN] at hshort
      omega
    rw [if_neg hshort, Option.isSome_map, and_iff_right hlong,
      show len.toNat + 1 - SIGNATURE_LEN = len.toNat - 3 by rw [SIGNATURE_LEN]; omega]
    exact handleSensorData_isSome_iff hlen

theorem asSensor_isSome_of_old (hlen : 8 ≤ payload.length) (hfour : 3 ≤ len.toNat)
    (hknown : knownDevice devices addr = some (i, dev)) (hseq : dev.seq = seqOf payload) :
    (asSensor env devices addr rssi (payload.drop 4) payload len calls).isSome := by
  rw [asSensor_isSome_iff hlen]
  refine ⟨hfour, fun _ => ⟨fun hnone => ?_, fun j other heq hnew => ?_⟩⟩
  · rw [← knownDevice_eq_none_iff, hknown] at hnone
    cases hnone
  · rw [hknown] at heq
    cases heq
    rw [hseq] at hnew
    exact absurd hnew (UInt32.lt_irrefl _)

theorem handleSwitchCommissioning_short (h : payload.length < 24) {short : Bool} :
    handleSwitchCommissioning env devices addr (payload.drop 4) short = none := by
  rw [handleSwitchCommissioning]
  by_cases hfour : 4 ≤ (payload.drop 4).length
  · rw [pullLe32_of_le hfour, Option.bind_some]
    dsimp only
    rw [pullMem_of_lt (by simp only [List.length_drop]; omega), Option.bind_none]
  · rw [pullLe32_of_lt (not_le.mp hfour), Option.bind_none]

theorem handleSwitchCommissioning_long (h : 24 ≤ payload.length) {short : Bool} :
    handleSwitchCommissioning env devices addr (payload.drop 4) short =
      if short = false ∧ payload.length ≠ 30 then some ((devices, []), -EINVAL)
      else btEnoceanCommission env devices addr (payload.drop 8) (seqOf payload) := by
  have hsix : ((payload.drop 8).drop 16).length ≠ 6 ↔ payload.length ≠ 30 := by
    simp only [List.length_drop]
    omega
  rw [handleSwitchCommissioning, pullLe32_of_le (by simp only [List.length_drop]; omega), Option.bind_some]
  simp only [List.drop_drop, Nat.reduceAdd]
  rw [pullMem_of_le (by simp only [List.length_drop]; omega), Option.bind_some]
  simp only [hsix]
  rfl

theorem recvData_commissioning (h29 : len = 29) :
    ((handleSwitchCommissioning env devices addr (payload.drop 4) false).bind fun ((devices, calls), err) =>
      if err = 0 then some (devices, calls)
      else asSensor env devices addr rssi (payload.drop 4) payload len calls).isSome ↔
      24 ≤ payload.length ∧ (¬ (payload.length = 30 ∧ Taken env devices addr) →
        3 ≤ len.toNat ∧ SensorFits env devices addr payload (len.toNat - 3)) := by
  have hthree : 3 ≤ len.toNat := by
    rw [h29]
    decide
  by_cases hkey : 24 ≤ payload.length
  · rw [handleSwitchCommissioning_long hkey, and_iff_right hkey]
    by_cases h30 : payload.length = 30
    · have hrest : 16 ≤ (payload.drop 8).length := by
        rw [List.length_drop]
        omega
      rw [if_neg (by simp [h30]), and_iff_right h30]
      by_cases hnew : deviceFind devices addr = none ∧ (freeSlot devices).isSome
      · obtain ⟨hfind, hfree⟩ := hnew
        obtain ⟨i, hi⟩ := Option.isSome_iff_exists.mp hfree
        by_cases hrejects : env.commissioned = true ∧ env.rejects = true
        · obtain ⟨devices', calls, err, herr, hrun, hfind'⟩ :=
            btEnoceanCommission_rejected (seqOf payload) hfind hi hrest hrejects
          rw [hrun, Option.bind_some]
          simp only [if_neg herr]
          rw [asSensor_isSome_iff (by omega), sensorFits_of_new hfind' (by omega),
            sensorFits_of_new hfind (by omega)]
          exact ⟨fun h _ => h, fun h => h fun htaken => htaken.2.2 hrejects⟩
        · obtain ⟨devices', calls, err, dev, hrun, hknown, hseq⟩ :=
            btEnoceanCommission_taken (seqOf payload) hfind hi hrest hrejects
          rw [hrun, Option.bind_some]
          apply iff_of_true
          · dsimp only
            split
            · rfl
            · exact asSensor_isSome_of_old (by omega) hthree hknown hseq
          · exact fun h => absurd ⟨hfind, hfree, hrejects⟩ h
      · obtain ⟨err, herr, hrun⟩ := btEnoceanCommission_refused env (payload.drop 8)
          (seqOf payload) fun hfind => by
            by_contra hfree
            exact hnew ⟨hfind, Option.isSome_iff_ne_none.mpr hfree⟩
        rw [hrun, Option.bind_some]
        simp only [if_neg herr]
        rw [asSensor_isSome_iff (by omega)]
        exact ⟨fun h _ => h, fun h => h fun htaken => hnew ⟨htaken.1, htaken.2.1⟩⟩
    · rw [if_pos ⟨rfl, h30⟩, Option.bind_some]
      simp only [if_neg (by decide : ¬ -EINVAL = 0)]
      rw [asSensor_isSome_iff (by omega)]
      exact ⟨fun h _ => h, fun h => h fun htaken => h30 htaken.1⟩
  · rw [handleSwitchCommissioning_short (not_le.mp hkey), Option.bind_none]
    exact iff_of_false (by simp) fun h => hkey h.1

theorem recvData_isSome_iff :
    (recvData env devices addr rssi (payload.drop 4) payload len).isSome ↔
      DataFits env devices addr payload len := by
  rw [recvData]
  by_cases hshort : payload.length ≤ 8
  · rw [if_pos hshort]
    exact iff_of_false (by simp) fun h => absurd h.status (by omega)
  · have hlen : 9 ≤ payload.length := by omega
    rw [if_neg hshort]
    by_cases hswitch : payload.getD 8 0 &&& 0xe0 = 0 ∧ 12 ≤ len ∧ len ≤ 16
    · rw [if_pos hswitch, handleSwitchData_isSome_iff hlen hswitch.1]
      exact ⟨fun h => ⟨hlen, fun _ => h, (absurd hswitch ·), (absurd hswitch ·)⟩, fun h => h.switch hswitch⟩
    · rw [if_neg hswitch]
      by_cases hkey : len = 29 ∧ env.commissioning = true
      · rw [if_pos hkey]
        refine (recvData_commissioning hkey.1).trans ⟨fun h => ?_, fun h => ?_⟩
        · exact ⟨hlen, (absurd · hswitch), fun _ _ _ => h.1, fun _ hnot => h.2 fun htaken =>
            hnot ⟨hkey.1, hkey.2, htaken⟩⟩
        · exact ⟨h.key hswitch hkey.1 hkey.2, fun hnot => h.sensor hswitch fun htaken => hnot htaken.2.2⟩
      · rw [if_neg hkey, Option.bind_some]
        refine Iff.trans (asSensor_isSome_iff (by omega)) ⟨fun h => ?_, fun h => ?_⟩
        · exact ⟨hlen, (absurd · hswitch), fun _ h29 hmode => absurd ⟨h29, hmode⟩ hkey, fun _ _ => h⟩
        · exact h.sensor hswitch fun htaken => hkey ⟨htaken.1, htaken.2.1⟩

end Advertisements

def StructureFits (env : Surroundings) (devices : List BtEnoceanDevice) (addr : BtAddrLe)
    (payload : List UInt8)
    (hasShortenedName : Bool) : Prop :=
  payload.getD 1 0 = BT_DATA_MANUFACTURER_DATA →
    4 ≤ payload.length ∧ (UInt16.ofNat (leValue ((payload.drop 2).take 2)) = 0x03da →
      (hasShortenedName = true → payload.getD 0 0 = 23 → env.commissioning = true → 24 ≤ payload.length) ∧
      (hasShortenedName = false → DataFits env devices addr payload (payload.getD 0 0)))

/-- The payload of an advertisement fits. -/
structure PayloadFits (env : Surroundings) (devices : List BtEnoceanDevice) (addr : BtAddrLe)
    (payload : List UInt8) : Prop where
  header : 2 ≤ payload.length
  unnamed : payload.getD 1 0 ≠ BT_DATA_NAME_SHORTENED → StructureFits env devices addr payload false
  name : payload.getD 1 0 = BT_DATA_NAME_SHORTENED →
    1 ≤ (payload.getD 0 0).toNat ∧ (payload.getD 0 0).toNat + 3 ≤ payload.length
  named : payload.getD 1 0 = BT_DATA_NAME_SHORTENED →
    StructureFits env devices addr (payload.drop ((payload.getD 0 0).toNat + 1)) true

section Payloads

variable {env : Surroundings} {devices : List BtEnoceanDevice} {addr : BtAddrLe} {rssi : Int8}
  {payload : List UInt8} {short : Bool}

theorem recvStructure_isSome_iff :
    (recvStructure env devices addr rssi (payload.drop 2) payload (payload.getD 0 0) (payload.getD 1 0)
      short).isSome ↔ StructureFits env devices addr payload short := by
  rw [recvStructure, StructureFits]
  by_cases htype : payload.getD 1 0 = BT_DATA_MANUFACTURER_DATA
  · rw [if_neg (not_not.mpr htype), forall_prop_of_true htype]
    by_cases hlen : 4 ≤ payload.length
    · rw [pullLe16_of_le (by simp only [List.length_drop]; omega), Option.bind_some, and_iff_right hlen]
      simp only [List.drop_drop, Nat.reduceAdd]
      by_cases hman : UInt16.ofNat (leValue ((payload.drop 2).take 2)) = 0x03da
      · rw [if_neg (not_not.mpr hman), forall_prop_of_true hman]
        cases short with
        | true =>
          simp only [if_true, true_implies, Bool.true_eq_false, false_implies, and_true]
          by_cases hkey : payload.getD 0 0 = 23 ∧ env.commissioning = true
          · rw [if_pos hkey, Option.isSome_map]
            by_cases h24 : 24 ≤ payload.length
            · rw [handleSwitchCommissioning_long h24, if_neg (by simp), btEnoceanCommission_isSome_iff]
              refine iff_of_true (fun _ _ => ?_) fun _ _ => h24
              rw [List.length_drop]
              omega
            · rw [handleSwitchCommissioning_short (not_le.mp h24)]
              exact iff_of_false (by simp) fun h => h24 (h hkey.1 hkey.2)
          · rw [if_neg hkey]
            exact iff_of_true rfl fun h23 hmode => absurd ⟨h23, hmode⟩ hkey
        | false =>
          simp only [Bool.false_eq_true, if_false, false_implies, true_implies, true_and]
          exact recvData_isSome_iff
      · rw [if_pos hman]
        exact iff_of_true rfl fun h => absurd h hman
    · rw [pullLe16_of_lt (by simp only [List.length_drop]; omega), Option.bind_none]
      exact iff_of_false (by simp) fun h => hlen h.1
  · rw [if_pos htype]
    exact iff_of_true rfl fun h => absurd h htype

theorem pullHeader_of_le (h : 2 ≤ payload.length) (f : UInt8 → UInt8 → List UInt8 → Option Handled) :
    ((pullU8 payload).bind fun (len, rest) => (pullU8 rest).bind fun (type, rest) => f len type rest) =
      f (payload.getD 0 0) (payload.getD 1 0) (payload.drop 2) := by
  rw [pullU8_of_le (by omega), Option.bind_some]
  dsimp only
  rw [pullU8_of_le (by rw [List.length_drop]; omega), Option.bind_some, getD_drop, List.drop_drop]

theorem pullHeader_of_lt (h : payload.length < 2) (f : UInt8 → UInt8 → List UInt8 → Option Handled) :
    ((pullU8 payload).bind fun (len, rest) => (pullU8 rest).bind fun (type, rest) =>
        f len type rest) = none := by
  by_cases hone : 1 ≤ payload.length
  · rw [pullU8_of_le hone, Option.bind_some]
    dsimp only
    rw [pullU8_of_lt (by rw [List.length_drop]; omega), Option.bind_none]
  · rw [pullU8_of_lt (not_le.mp hone), Option.bind_none]

theorem recvNamed_isSome_iff (hone : 1 ≤ (payload.getD 0 0).toNat) (hheader : 2 ≤ payload.length) :
    ((pullMem ((payload.getD 0 0).toNat - 1) (payload.drop 2)).bind fun (_, payload) =>
      (pullU8 payload).bind fun (len, rest) => (pullU8 rest).bind fun (type, rest) =>
        recvStructure env devices addr rssi rest payload len type true).isSome ↔
      (payload.getD 0 0).toNat + 3 ≤ payload.length ∧
        StructureFits env devices addr (payload.drop ((payload.getD 0 0).toNat + 1)) true := by
  have hskip : 2 + ((payload.getD 0 0).toNat - 1) = (payload.getD 0 0).toNat + 1 := by omega
  have hrest : (payload.drop 2).length = payload.length - 2 := List.length_drop
  have hdrop : (payload.drop ((payload.getD 0 0).toNat + 1)).length = payload.length -
    ((payload.getD 0 0).toNat + 1) :=
    List.length_drop
  by_cases hname : (payload.getD 0 0).toNat - 1 ≤ (payload.drop 2).length
  · rw [pullMem_of_le hname, Option.bind_some, List.drop_drop, hskip]
    generalize payload.drop ((payload.getD 0 0).toNat + 1) = q at hdrop
    change ((pullU8 q).bind fun (len, rest) => (pullU8 rest).bind fun (type, rest) =>
      recvStructure env devices addr rssi rest q len type true).isSome ↔ _
    by_cases htwo : 2 ≤ q.length
    · rw [pullHeader_of_le htwo fun len type rest => recvStructure env devices addr rssi rest q len type true,
        recvStructure_isSome_iff, and_iff_right (by omega)]
    · rw [pullHeader_of_lt (not_le.mp htwo) fun len type rest =>
        recvStructure env devices addr rssi rest q len type true]
      exact iff_of_false (by simp) fun h => absurd h.1 (by omega)
  · rw [pullMem_of_lt (not_le.mp hname), Option.bind_none]
    exact iff_of_false (by simp) fun h => absurd h.1 (by omega)

/-- The receiver stays in the payload exactly if the payload fits. -/
theorem advRecv_isSome_iff (env : Surroundings) (devices : List BtEnoceanDevice) {info : RecvInfo}
    {addr : BtAddrLe} (htype : info.advType = BT_GAP_ADV_TYPE_ADV_NONCONN_IND) (haddr : info.addr = some addr)
    (hrandom : addr.type = BT_ADDR_LE_RANDOM) (payload : List UInt8) :
    (advRecv env devices info payload).isSome ↔ PayloadFits env devices addr payload := by
  rw [advRecv, haddr]
  dsimp only
  rw [if_neg (by simp [htype, hrandom])]
  by_cases hheader : 2 ≤ payload.length
  · rw [pullHeader_of_le hheader (recvPayload env devices addr info.rssi payload), recvPayload]
    by_cases hnamed : payload.getD 1 0 = BT_DATA_NAME_SHORTENED
    · rw [if_pos hnamed]
      by_cases hone : 1 ≤ (payload.getD 0 0).toNat
      · rw [if_neg (not_lt.mpr hone), recvNamed_isSome_iff hone hheader]
        constructor
        · rintro ⟨hlen, hfits⟩
          exact ⟨hheader, fun hnot => absurd hnamed hnot, fun _ => ⟨hone, hlen⟩, fun _ => hfits⟩
        · exact fun h => ⟨(h.name hnamed).2, h.named hnamed⟩
      · rw [if_pos (not_le.mp hone)]
        exact iff_of_false (by simp) fun h => hone (h.name hnamed).1
    · rw [if_neg hnamed, recvStructure_isSome_iff]
      exact ⟨fun h => ⟨hheader, fun _ => h, fun hname => absurd hname hnamed, fun hname =>
        absurd hname hnamed⟩,
        fun h => h.unnamed hnamed⟩
  · rw [pullHeader_of_lt (not_le.mp hheader) (recvPayload env devices addr info.rssi payload)]
    exact iff_of_false (by simp) fun h => hheader h.header

end Payloads

section Received

def listening : Surroundings where
  button := true
  sensor := true
  commissioned := false
  commissioning := true
  rejects := false
  storeErr := 0
  ccmDecrypt := fun _ _ _ _ => 0
  addressOf := fun _ => 0

def sender : RecvInfo := ⟨BT_GAP_ADV_TYPE_ADV_NONCONN_IND, some ⟨BT_ADDR_LE_RANDOM, [1, 2, 3, 4, 5, 6]⟩, -40⟩

/-- The length of an advertisement without data is pulled although there is none. -/
theorem noData_overrun : ¬ (advRecv listening [] sender []).isSome := by decide

def freeDevice : BtEnoceanDevice := ⟨0, 0, 0, ⟨0, List.replicate 6 0⟩, List.replicate 16 0⟩

/-- A message that commissions a switch. -/
def keyMessage : List UInt8 := [29, 0xff, 0xda, 3, 1, 0, 0, 0] ++ List.replicate 22 0xff

theorem keyMessage_fits : (advRecv listening [freeDevice] sender keyMessage).isSome ∧
    PayloadFits listening [freeDevice] ⟨BT_ADDR_LE_RANDOM, [1, 2, 3, 4, 5, 6]⟩ keyMessage := by
  have hread : (advRecv listening [freeDevice] sender keyMessage).isSome := by decide
  exact ⟨hread, (advRecv_isSome_iff listening [freeDevice] rfl rfl rfl keyMessage).mp hread⟩

end Received

end SdkNrf.Enocean
