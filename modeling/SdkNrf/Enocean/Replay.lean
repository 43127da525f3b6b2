import SdkNrf.Enocean.AdvBounds
import SdkNrf.Framework.Reachable

/-!
# Replay of EnOcean messages

A message is delivered to the application if a device of the table has not seen its sequence number
yet and its signature is verified.
-/

namespace SdkNrf.Enocean

def Call.deliversTo (i : Nat) : Call → Bool
  | .commissioned _ => false
  | .button dev _ _ _ => dev = i
  | .sensor dev _ _ => dev = i

/-- The last bytes of a payload are verified as the signature of exactly the bytes before them, under the key
and the address of the device and the sequence number of the payload. -/
def Verified (env : Surroundings) (dev : BtEnoceanDevice) (payload : List UInt8) : Prop :=
  SIGNATURE_LEN ≤ payload.length ∧
    env.ccmDecrypt dev.key (dev.addr.val, seqOf payload) (payload.take (payload.length - SIGNATURE_LEN))
      (payload.drop (payload.length - SIGNATURE_LEN)) = 0

structure Kept (devices devices' : List BtEnoceanDevice) : Prop where
  length : devices'.length = devices.length
  active : ∀ (i : Nat) (dev : BtEnoceanDevice), devices[i]? = some dev → dev.active = true →
    devices'[i]? = some dev

/-- What a message does: the devices stay and nothing is delivered, or the message of a device is verified and
delivered. -/
inductive Effect (env : Surroundings) (devices : List BtEnoceanDevice) (addr : BtAddrLe) (rssi : Int8)
    (payload : List UInt8) : Handled → Prop
  | quiet {devices' : List BtEnoceanDevice} {calls : List Call} (hkept : Kept devices devices')
      (hcalls : ∀ call ∈ calls, ∀ i, call.deliversTo i = false) :
      Effect env devices addr rssi payload (devices', calls)
  | delivered {i : Nat} {dev : BtEnoceanDevice} {call : Call}
      (hknown : knownDevice devices addr = some (i, dev))
      (hnewer : dev.seq < seqOf payload) (hverified : Verified env dev payload)
      (hcall : ∀ j, call.deliversTo j = decide (i = j)) :
      Effect env devices addr rssi payload (accepted devices i (seqOf payload) rssi, [call])

theorem Kept.refl (devices : List BtEnoceanDevice) : Kept devices devices := ⟨rfl, fun _ _ h _ => h⟩

theorem Kept.trans {devices₁ devices₂ devices₃ : List BtEnoceanDevice} (h : Kept devices₁ devices₂)
    (h' : Kept devices₂ devices₃) : Kept devices₁ devices₃ :=
  ⟨h'.length.trans h.length, fun i dev hdev hactive => h'.active i dev (h.active i dev hdev hactive) hactive⟩

section Messages

variable {env : Surroundings} {devices devices' : List BtEnoceanDevice} {addr : BtAddrLe} {rssi : Int8}
  {buf rest data payload : List UInt8} {calls : List Call} {handled : Handled}

theorem pullMem_eq_some {len : Nat} (h : pullMem len buf = some (data, rest)) :
    len ≤ buf.length ∧ data = buf ∧ rest = buf.drop len := by
  by_cases hlen : len ≤ buf.length
  · rw [pullMem_of_le hlen] at h
    cases h
    exact ⟨hlen, rfl, rfl⟩
  · rw [pullMem_of_lt (not_le.mp hlen)] at h
    cases h

theorem pullU8_eq_some {value : UInt8} (h : pullU8 buf = some (value, rest)) :
    1 ≤ buf.length ∧ value = buf.getD 0 0 ∧ rest = buf.drop 1 := by
  by_cases hlen : 1 ≤ buf.length
  · rw [pullU8_of_le hlen] at h
    cases h
    exact ⟨hlen, rfl, rfl⟩
  · rw [pullU8_of_lt (not_le.mp hlen)] at h
    cases h

theorem pullLe16_eq_some {value : UInt16} (h : pullLe16 buf = some (value, rest)) :
    2 ≤ buf.length ∧ value = UInt16.ofNat (leValue (buf.take 2)) ∧ rest = buf.drop 2 := by
  by_cases hlen : 2 ≤ buf.length
  · rw [pullLe16_of_le hlen] at h
    cases h
    exact ⟨hlen, rfl, rfl⟩
  · rw [pullLe16_of_lt (not_le.mp hlen)] at h
    cases h

theorem pullLe32_eq_some {value : UInt32} (h : pullLe32 buf = some (value, rest)) :
    4 ≤ buf.length ∧ value = UInt32.ofNat (leValue (buf.take 4)) ∧ rest = buf.drop 4 := by
  by_cases hlen : 4 ≤ buf.length
  · rw [pullLe32_of_le hlen] at h
    cases h
    exact ⟨hlen, rfl, rfl⟩
  · rw [pullLe32_of_lt (not_le.mp hlen)] at h
    cases h

theorem Effect.unchanged : Effect env devices addr rssi payload (devices, []) :=
  .quiet (Kept.refl devices) (by simp)

theorem verified_of_auth {dev : BtEnoceanDevice} {len : Nat} {err : Int}
    (h : auth env dev (seqOf payload) (payload.drop len) payload len = some err)
    (hlen : len + SIGNATURE_LEN = payload.length)
    (herr : ¬ err ≠ 0) : Verified env dev payload := by
  have hsig : (payload.drop len).length = SIGNATURE_LEN := by
    rw [List.length_drop]
    omega
  rw [auth_of_le (by omega) hsig.ge, ← hsig, List.take_length] at h
  have hpos : payload.length - SIGNATURE_LEN = len := by omega
  refine ⟨by omega, ?_⟩
  rw [hpos, Option.some.inj h]
  exact not_ne_iff.mp herr

theorem handleSwitchData_effect
    (h : handleSwitchData env devices addr rssi (payload.drop 4) payload = some handled) :
    Effect env devices addr rssi payload handled := by
  rw [handleSwitchData] at h
  split_ifs at h with hbutton
  · cases h
    exact .unchanged
  · cases hknown : knownDevice devices addr with
    | none =>
      rw [hknown] at h
      cases h
      exact .unchanged
    | some known =>
      obtain ⟨i, dev⟩ := known
      simp only [hknown, Option.bind_eq_some_iff, Prod.exists] at h
      obtain ⟨seq, buf, hseq, h⟩ := h
      obtain ⟨-, rfl, rfl⟩ := pullLe32_eq_some hseq
      change (if seqOf payload ≤ dev.seq then _ else _) = _ at h
      split_ifs at h with hold
      · cases h
        exact .unchanged
      · simp only [Option.bind_eq_some_iff, Prod.exists] at h
        obtain ⟨status, buf, hstatus, h⟩ := h
        obtain ⟨-, rfl, rfl⟩ := pullU8_eq_some hstatus
        simp only [List.drop_drop] at h
        split_ifs at h with htop hshort hopt
        · cases h
          exact .unchanged
        · simp only [Option.bind_eq_some_iff, Option.map_eq_some_iff, Prod.exists] at h
          obtain ⟨optData, buf, hpull, signature, buf', hpull', err, hauth, h⟩ := h
          obtain ⟨-, rfl, rfl⟩ := pullMem_eq_some hpull
          obtain ⟨-, rfl, -⟩ := pullMem_eq_some hpull'
          split_ifs at h with herr
          · cases h
            exact .unchanged
          · cases h
            simp only [List.drop_drop, List.length_drop, SIGNATURE_LEN] at hshort hauth
            have hlen : 9 + (payload.length - (4 + 4 + 1) - SIGNATURE_LEN) + SIGNATURE_LEN =
              payload.length := by
              simp only [SIGNATURE_LEN]
              omega
            exact .delivered hknown (UInt32.not_le.mp hold) (verified_of_auth hauth hlen herr) fun j => rfl
        · cases h
          exact .unchanged

theorem sensorEntries_suffix {fuel : Nat} {collected collected' : Collected}
    (h : sensorEntries env fuel buf collected = some (some (rest, collected'))) : rest <:+ buf := by
  induction fuel generalizing buf collected with
  | zero =>
    rw [sensorEntries] at h
    split_ifs at h
    cases h
    exact List.suffix_rfl
  | succ fuel ih =>
    rw [sensorEntries] at h
    split_ifs at h with hshort
    · cases h
      exact List.suffix_rfl
    · by_cases hle : entrySize buf ≤ buf.length
      · obtain ⟨entry, hpull, -⟩ := dataEntryPull_of_le env hle
        rw [hpull, Option.bind_some] at h
        dsimp only at h
        split_ifs at h with hcomm
        · cases h
        · exact (ih h).trans (List.drop_suffix _ _)
      · rw [dataEntryPull_of_lt (not_le.mp hle)] at h
        cases h

end Messages

def EndsInSignature (env : Surroundings) (payload : List UInt8) : Prop :=
  ∃ rest collected, sensorEntries env (payload.drop 8).length (payload.drop 8) {} = some
    (some (rest, collected)) ∧
    rest.length = SIGNATURE_LEN

section Commissioned

variable {env : Surroundings} {devices devices' : List BtEnoceanDevice} {addr : BtAddrLe} {rssi : Int8}
  {key payload : List UInt8} {seq : UInt32} {calls : List Call} {handled : Handled} {err : Int}

theorem kept_modify {i : Nat} (hfree : freeSlot devices = some i) (f : BtEnoceanDevice → BtEnoceanDevice) :
    Kept devices (devices.modify i f) := by
  obtain ⟨dev, hdev, hinactive⟩ := freeSlot_eq_some hfree
  refine ⟨List.length_modify .., fun j other hother hactive => ?_⟩
  by_cases hij : i = j
  · subst hij
    rw [hdev] at hother
    rw [Option.some.inj hother, hactive] at hinactive
    exact absurd hinactive Bool.true_eq_false_eq_False.elim
  · rwa [List.getElem?_modify_ne f devices hij]

theorem inactive_of_flags {dev : BtEnoceanDevice} (h : dev.flags = 0) : dev.active = false := by
  simp [BtEnoceanDevice.active, h]

theorem seq_of_commissioned {j : Nat} (hfind : deviceFind devices addr = none)
    (hfree : freeSlot devices = some j)
    (key : List UInt8) (seq : UInt32) (i : Nat) (dev : BtEnoceanDevice)
    (hknown : knownDevice (devices.modify j fun dev =>
        { dev with addr, seq, key := key.take 16, flags := FLAG_ACTIVE })
      addr = some (i, dev)) : dev.seq = seq := by
  obtain ⟨old, hold, -⟩ := freeSlot_eq_some hfree
  have hactive : decide (FLAG_ACTIVE &&& FLAG_ACTIVE ≠ 0) = true := by decide
  have hnew := knownDevice_commissioned hfind hold
    (f := fun dev => { dev with addr, seq, key := key.take 16, flags := FLAG_ACTIVE }) hactive rfl
  rw [hnew] at hknown
  cases hknown
  rfl

/-- A commissioning keeps the active devices. It changes nothing, or the device, if it is known
afterwards, has the sequence number that it is commissioned with. -/
theorem btEnoceanCommission_cases
    (h : btEnoceanCommission env devices addr key seq = some ((devices', calls), err)) :
    Kept devices devices' ∧ (∀ call ∈ calls, ∀ i, call.deliversTo i = false) ∧
      (devices' = devices ∧ calls = [] ∨ ∀ i dev, knownDevice devices' addr = some (i, dev) →
        dev.seq = seq) := by
  rw [btEnoceanCommission] at h
  cases hfind : deviceFind devices addr with
  | some j =>
    rw [hfind] at h
    cases h
    exact ⟨Kept.refl devices, by simp, .inl ⟨rfl, rfl⟩⟩
  | none =>
    cases hfree : freeSlot devices with
    | none =>
      rw [hfind, hfree] at h
      cases h
      exact ⟨Kept.refl devices, by simp, .inl ⟨rfl, rfl⟩⟩
    | some j =>
      simp only [hfind, hfree] at h
      have hcalls : ∀ call ∈ (if env.commissioned = true then [Call.commissioned j] else []), ∀ i,
          call.deliversTo i = false := by
        split_ifs <;> simp [Call.deliversTo]
      generalize (if env.commissioned = true then [Call.commissioned j] else []) = made at h hcalls
      have hseq := seq_of_commissioned hfind hfree key seq
      split_ifs at h with hkey hrejects hstore
      · cases h
        rw [List.modify_modify_eq]
        refine ⟨kept_modify hfree _, hcalls, .inr fun i dev hknown => ?_⟩
        have hrejected := deviceFind_rejected (i := j) hfind
          (f := (fun dev => { dev with flags := 0 }) ∘ fun dev =>
            { dev with addr, seq, key := key.take 16, flags := FLAG_ACTIVE })
          fun _ => inactive_of_flags rfl
        rw [knownDevice_eq_none_iff.mpr hrejected] at hknown
        cases hknown
      · cases h
        exact ⟨kept_modify hfree _, hcalls, .inr hseq⟩
      · cases h
        exact ⟨kept_modify hfree _, hcalls, .inr hseq⟩

theorem handleSensorData_effect {totLen : Nat}
    (h : handleSensorData env devices addr rssi (payload.drop 4) payload totLen = some handled)
    (hexact : ∀ i dev, knownDevice devices addr = some (i, dev) → dev.seq < seqOf payload →
      EndsInSignature env payload → totLen + SIGNATURE_LEN = payload.length) :
    Effect env devices addr rssi payload handled := by
  rw [handleSensorData] at h
  split_ifs at h with hsensor
  · cases h
    exact .unchanged
  · simp only [Option.bind_eq_some_iff, Prod.exists] at h
    obtain ⟨seq, buf, hseq, h⟩ := h
    obtain ⟨-, rfl, rfl⟩ := pullLe32_eq_some hseq
    cases hknown : knownDevice devices addr with
    | none =>
      simp only [hknown, Option.bind_eq_some_iff, Prod.exists] at h
      obtain ⟨entry, buf, -, h⟩ := h
      split_ifs at h with htype
      · cases h
        exact .unchanged
      · obtain ⟨⟨⟨devices', calls⟩, err⟩, hcommission, rfl⟩ := Option.map_eq_some_iff.mp h
        obtain ⟨hkept, hcalls, -⟩ := btEnoceanCommission_cases hcommission
        exact .quiet hkept hcalls
    | some known =>
      obtain ⟨i, dev⟩ := known
      simp only [hknown] at h
      change (if seqOf payload ≤ dev.seq then _ else _) = _ at h
      split_ifs at h with hold
      · cases h
        exact .unchanged
      · simp only [Option.bind_eq_some_iff] at h
        obtain ⟨read, hread, h⟩ := h
        cases read with
        | none =>
          cases h
          exact .unchanged
        | some read =>
          obtain ⟨rest, collected⟩ := read
          dsimp only at h
          split_ifs at h with hrest
          · cases h
            exact .unchanged
          · simp only [Option.bind_eq_some_iff, Option.map_eq_some_iff, Prod.exists] at h
            obtain ⟨signature, buf', hpull, err, hauth, h⟩ := h
            obtain ⟨-, rfl, -⟩ := pullMem_eq_some hpull
            split_ifs at h with herr
            · cases h
              exact .unchanged
            · cases h
              rw [List.drop_drop] at hread
              have hnewer := UInt32.not_le.mp hold
              have hends := not_not.mp hrest
              have hlen := hexact i dev hknown hnewer ⟨_, collected, hread, hends⟩
              have hsuffix := (sensorEntries_suffix hread).trans (List.drop_suffix _ _)
              have hpos : payload.length - SIGNATURE_LEN = totLen := by omega
              rw [List.suffix_iff_eq_drop, hends, hpos] at hsuffix
              rw [hsuffix] at hauth
              exact .delivered hknown hnewer (verified_of_auth hauth hlen herr) fun j => rfl

theorem handleSwitchCommissioning_cases {buf : List UInt8} {short : Bool}
    (h : handleSwitchCommissioning env devices addr buf short = some ((devices', calls), err)) :
    Kept devices devices' ∧ (∀ call ∈ calls, ∀ i, call.deliversTo i = false) ∧
      (devices' = devices ∧ calls = [] ∨ ∀ i dev, knownDevice devices' addr = some (i, dev) →
        dev.seq = UInt32.ofNat (leValue (buf.take 4))) := by
  simp only [handleSwitchCommissioning, Option.bind_eq_some_iff, Prod.exists] at h
  obtain ⟨seq, buf', hseq, key, buf'', -, h⟩ := h
  obtain ⟨-, rfl, -⟩ := pullLe32_eq_some hseq
  split_ifs at h
  · cases h
    exact ⟨Kept.refl devices, by simp, .inl ⟨rfl, rfl⟩⟩
  · exact btEnoceanCommission_cases h

def SensorMessage (payload : List UInt8) : Prop :=
  payload.getD 1 0 = BT_DATA_MANUFACTURER_DATA ∧
    ¬ (payload.getD 8 0 &&& 0xe0 = 0 ∧ 12 ≤ payload.getD 0 0 ∧ payload.getD 0 0 ≤ 16)

def ExactFor (env : Surroundings) (devices : List BtEnoceanDevice) (addr : BtAddrLe)
    (payload : List UInt8) : Prop :=
  ∀ i dev, knownDevice devices addr = some (i, dev) → dev.seq < seqOf payload → SensorMessage payload →
    EndsInSignature env payload → payload.length = (payload.getD 0 0).toNat + 1

theorem asSensor_effect {len : UInt8}
    (hkept : Kept devices devices') (hcalls : ∀ call ∈ calls, ∀ i, call.deliversTo i = false)
    (hnew : devices' = devices ∧ calls = [] ∨ ∀ i dev, knownDevice devices' addr = some (i, dev) →
      dev.seq = seqOf payload)
    (hexact : ∀ i dev, knownDevice devices addr = some (i, dev) → dev.seq < seqOf payload →
      EndsInSignature env payload → payload.length = len.toNat + 1)
    (h : asSensor env devices' addr rssi (payload.drop 4) payload len calls = some handled) :
    Effect env devices addr rssi payload handled := by
  rw [asSensor] at h
  split_ifs at h with hlen
  obtain ⟨⟨devices'', more⟩, hsensor, rfl⟩ := Option.map_eq_some_iff.mp h
  simp only [SIGNATURE_LEN] at hlen
  have heffect : Effect env devices' addr rssi payload (devices'', more) := by
    apply handleSensorData_effect hsensor
    intro i dev hknown hnewer hends
    cases hnew with
    | inl hsame =>
      have hexact' := hexact i dev (hsame.1 ▸ hknown) hnewer hends
      simp only [SIGNATURE_LEN]
      omega
    | inr hseq =>
      rw [hseq i dev hknown] at hnewer
      exact absurd hnewer (UInt32.lt_irrefl _)
  cases heffect with
  | quiet hkept' hcalls' =>
    refine .quiet (hkept.trans hkept') fun call hcall => ?_
    exact (List.mem_append.mp hcall).elim (hcalls call) (hcalls' call)
  | delivered hknown hnewer hverified hcall =>
    cases hnew with
    | inl hsame =>
      obtain ⟨rfl, rfl⟩ := hsame
      exact .delivered hknown hnewer hverified hcall
    | inr hseq =>
      rw [hseq _ _ hknown] at hnewer
      exact absurd hnewer (UInt32.lt_irrefl _)

theorem recvData_effect {len : UInt8}
    (hexact : ¬ (payload.getD 8 0 &&& 0xe0 = 0 ∧ 12 ≤ len ∧ len ≤ 16) → ∀ i dev,
        knownDevice devices addr = some (i, dev) →
      dev.seq < seqOf payload → EndsInSignature env payload → payload.length = len.toNat + 1)
    (h : recvData env devices addr rssi (payload.drop 4) payload len = some handled) :
    Effect env devices addr rssi payload handled := by
  rw [recvData] at h
  by_cases hshort : payload.length ≤ 8
  · rw [if_pos hshort] at h
    cases h
  rw [if_neg hshort] at h
  by_cases hswitch : payload.getD 8 0 &&& 0xe0 = 0 ∧ 12 ≤ len ∧ len ≤ 16
  · rw [if_pos hswitch] at h
    exact handleSwitchData_effect h
  rw [if_neg hswitch] at h
  by_cases hkey : len = 29 ∧ env.commissioning = true
  · rw [if_pos hkey, Option.bind_eq_some_iff] at h
    obtain ⟨⟨⟨devices', calls⟩, err⟩, hcommission, h⟩ := h
    obtain ⟨hkept, hcalls, hnew⟩ := handleSwitchCommissioning_cases hcommission
    by_cases herr : err = 0
    · simp only [if_pos herr] at h
      cases h
      exact .quiet hkept hcalls
    · simp only [if_neg herr] at h
      exact asSensor_effect hkept hcalls hnew (hexact hswitch) h
  · rw [if_neg hkey, Option.bind_some] at h
    exact asSensor_effect (Kept.refl devices) (by simp) (.inl ⟨rfl, rfl⟩) (hexact hswitch) h

theorem recvNamed_effect {buf data : List UInt8} {len type : UInt8}
    (h : recvStructure env devices addr rssi buf data len type true = some handled) :
    Effect env devices addr rssi payload handled := by
  rw [recvStructure] at h
  by_cases htype : type ≠ BT_DATA_MANUFACTURER_DATA
  · rw [if_pos htype] at h
    cases h
    exact .unchanged
  · simp only [if_neg htype, if_true, Option.bind_eq_some_iff, Prod.exists] at h
    obtain ⟨manufacturer, buf', -, h⟩ := h
    split_ifs at h with hother hkey
    · cases h
      exact .unchanged
    · obtain ⟨⟨⟨devices', calls⟩, err⟩, hcommission, rfl⟩ := Option.map_eq_some_iff.mp h
      obtain ⟨hkept, hcalls, -⟩ := handleSwitchCommissioning_cases hcommission
      exact .quiet hkept hcalls
    · cases h
      exact .unchanged

theorem recvStructure_effect {len type : UInt8}
    (hexact : type = BT_DATA_MANUFACTURER_DATA → ¬ (payload.getD 8 0 &&& 0xe0 = 0 ∧ 12 ≤ len ∧ len ≤ 16) →
      ∀ i dev, knownDevice devices addr = some (i, dev) → dev.seq < seqOf payload →
        EndsInSignature env payload →
        payload.length = len.toNat + 1)
    (h : recvStructure env devices addr rssi (payload.drop 2) payload len type false = some handled) :
    Effect env devices addr rssi payload handled := by
  rw [recvStructure] at h
  by_cases htype : type ≠ BT_DATA_MANUFACTURER_DATA
  · rw [if_pos htype] at h
    cases h
    exact .unchanged
  · simp only [if_neg htype, Bool.false_eq_true, if_false, Option.bind_eq_some_iff, Prod.exists] at h
    obtain ⟨manufacturer, buf, hpull, h⟩ := h
    obtain ⟨-, -, rfl⟩ := pullLe16_eq_some hpull
    split_ifs at h with hother
    · cases h
      exact .unchanged
    · rw [List.drop_drop] at h
      exact recvData_effect (hexact (not_not.mp htype)) h

theorem advRecv_effect {info : RecvInfo} (haddr : info.addr = some addr)
    (hexact : ExactFor env devices addr payload)
    (h : advRecv env devices info payload = some handled) :
    Effect env devices addr info.rssi payload handled := by
  rw [advRecv, haddr] at h
  dsimp only at h
  split_ifs at h
  · cases h
    exact .unchanged
  · simp only [Option.bind_eq_some_iff, Prod.exists] at h
    obtain ⟨len, rest, hlen, type, rest', htype, h⟩ := h
    obtain ⟨-, rfl, rfl⟩ := pullU8_eq_some hlen
    obtain ⟨-, rfl, rfl⟩ := pullU8_eq_some htype
    rw [getD_drop, List.drop_drop] at h
    rw [recvPayload] at h
    split_ifs at h with hnamed hempty
    · simp only [Option.bind_eq_some_iff, Prod.exists] at h
      obtain ⟨_, _, -, _, _, -, _, _, -, h⟩ := h
      exact recvNamed_effect h
    · apply recvStructure_effect _ h
      intro htype hformat i dev hknown hnewer
      exact hexact i dev hknown hnewer ⟨htype, hformat⟩

end Commissioned

/-- The sequence number that a device was commissioned with, and those of the messages that have
been delivered since then, the last one first. -/
structure Life where
  first : UInt32
  seqs : List UInt32
  deriving DecidableEq, Repr

/-- The devices, and for each place of the table the life of its device. -/
structure Receiver where
  devices : List BtEnoceanDevice
  lives : Nat → Life

inductive Event
  | advertisement (env : Surroundings) (info : RecvInfo) (payload : List UInt8)
  | commission (env : Surroundings) (addr : BtAddrLe) (key : List UInt8) (seq : UInt32)
  | decommission (i : Nat)

/-- A place that had no active device begins a new life; a message that is delivered belongs to the
life of its device. -/
def Life.next (life : Life) (i : Nat) (before after : BtEnoceanDevice) (calls : List Call) : Life :=
  if before.active = false then ⟨after.seq, []⟩
  else if calls.any (Call.deliversTo i) then { life with seqs := after.seq :: life.seqs }
  else life

def Receiver.observe (s : Receiver) (handled : Handled) : Receiver where
  devices := handled.1
  lives i := match s.devices[i]?, handled.1[i]? with
    | some before, some after => (s.lives i).next i before after handled.2
    | _, _ => s.lives i

def Receiver.step (s : Receiver) : Event → Receiver
  | .advertisement env info payload => ((advRecv env s.devices info payload).map s.observe).getD s
  | .commission env addr key seq =>
    ((btEnoceanCommission env s.devices addr key seq).map fun result => s.observe result.1).getD s
  | .decommission i => s.observe (s.devices.modify i fun dev => { dev with flags := 0 }, [])

def Receiver.init (devices : List BtEnoceanDevice) : Receiver where
  devices := devices
  lives i := ⟨(devices[i]?.map BtEnoceanDevice.seq).getD 0, []⟩

def Exact (env : Surroundings) (devices : List BtEnoceanDevice) (info : RecvInfo)
    (payload : List UInt8) : Prop :=
  ∀ addr ∈ info.addr, ExactFor env devices addr payload

/-- An advertisement is read inside its buffer, and a key has 16 bytes. -/
def Readable (s : Receiver) : Event → Prop
  | .advertisement env info payload => (advRecv env s.devices info payload).isSome
  | .commission _ _ key _ => key.length = 16
  | .decommission _ => True

def Proper (s : Receiver) (e : Event) : Prop :=
  Readable s e ∧ ∀ env info payload, e = .advertisement env info payload → Exact env s.devices info payload

structure Life.Increasing (life : Life) (seq : UInt32) : Prop where
  last : life.seqs.headD life.first = seq
  increasing : (life.seqs ++ [life.first]).Pairwise (· > ·)

/-- Sequence numbers increase; and of the advertisements that are considered, what is delivered has
been verified for an active device with the address of the sender, and without that every active
device stays as it is. -/
structure ReplayRight
    (considered : Surroundings → List BtEnoceanDevice → RecvInfo → List UInt8 → Prop)
    (s : Receiver) : Prop where
  increasing : ∀ (i : Nat) dev, s.devices[i]? = some dev → dev.active = true → (s.lives i).Increasing dev.seq
  caused : ∀ env info payload handled, considered env s.devices info payload →
    advRecv env s.devices info payload = some handled → ∀ call ∈ handled.2, ∀ i, call.deliversTo i = true →
      ∃ dev, s.devices[i]? = some dev ∧ dev.active = true ∧ info.addr = some dev.addr ∧
        Verified env dev payload
  unverified : ∀ env info payload handled, considered env s.devices info payload →
    advRecv env s.devices info payload = some handled →
    (∀ dev ∈ s.devices, dev.active = true → info.addr = some dev.addr → ¬ Verified env dev payload) →
      Kept s.devices handled.1

section Runs

variable {s : Receiver} {devices : List BtEnoceanDevice}

def Receiver.Lives (s : Receiver) : Prop :=
  ∀ (i : Nat) dev, s.devices[i]? = some dev → dev.active = true → (s.lives i).Increasing dev.seq

theorem Life.increasing_new (seq : UInt32) : Life.Increasing ⟨seq, []⟩ seq := ⟨rfl, by simp⟩

theorem Life.Increasing.deliver {life : Life} {seq seq' : UInt32} (h : life.Increasing seq)
    (hlt : seq < seq') :
    Life.Increasing { life with seqs := seq' :: life.seqs } seq' := by
  refine ⟨rfl, ?_⟩
  rw [List.cons_append, List.pairwise_cons]
  refine ⟨?_, h.increasing⟩
  have hlast := h.last
  have hincreasing := h.increasing
  cases hseqs : life.seqs with
  | nil =>
    simp_all
  | cons last rest =>
    rw [hseqs] at hlast hincreasing
    simp only [List.headD_cons] at hlast
    subst hlast
    rw [List.cons_append, List.pairwise_cons] at hincreasing
    intro seq hseq
    rw [List.cons_append] at hseq
    cases List.mem_cons.mp hseq with
    | inl heq => rwa [heq]
    | inr hrest => exact UInt32.lt_trans (hincreasing.1 seq hrest) hlt

theorem Receiver.Lives.init (devices : List BtEnoceanDevice) : (Receiver.init devices).Lives := by
  intro i dev hdev _
  have hlife : (Receiver.init devices).lives i = ⟨dev.seq, []⟩ := by
    change (⟨(devices[i]?.map BtEnoceanDevice.seq).getD 0, []⟩ : Life) = _
    rw [show devices[i]? = some dev from hdev]
    rfl
  rw [hlife]
  exact Life.increasing_new dev.seq

theorem observe_life {handled : Handled} {i : Nat} {after : BtEnoceanDevice}
    (hlength : handled.1.length = s.devices.length) (hafter : handled.1[i]? = some after) :
    ∃ before, s.devices[i]? = some before ∧
      (s.observe handled).lives i = (s.lives i).next i before after handled.2 := by
  obtain ⟨hi, -⟩ := List.getElem?_eq_some_iff.mp hafter
  have hbefore : s.devices[i]? = some s.devices[i] := List.getElem?_eq_getElem (hlength ▸ hi)
  exact ⟨s.devices[i], hbefore, by simp only [Receiver.observe, hbefore, hafter]⟩

theorem Receiver.Lives.quiet (h : s.Lives) {handled : Handled} (hlength : handled.1.length = s.devices.length)
    (hsame : ∀ (i : Nat) before after, s.devices[i]? = some before → handled.1[i]? = some after →
      before.active = true → after.active = true → after = before)
    (hcalls : ∀ call ∈ handled.2, ∀ i, call.deliversTo i = false) : (s.observe handled).Lives := by
  intro i after hafter hactive
  obtain ⟨before, hbefore, hlife⟩ := observe_life hlength hafter
  have hnone : handled.2.any (Call.deliversTo i) = false := by
    rw [List.any_eq_false]
    intro call hcall
    simp [hcalls call hcall i]
  rw [hlife, Life.next, hnone]
  by_cases hold : before.active = true
  · rw [if_neg (by simp [hold]), if_neg (by simp), hsame i before after hbefore hafter hold hactive]
    exact h i before hbefore hold
  · rw [if_pos (by simpa using hold)]
    exact Life.increasing_new after.seq

theorem Receiver.Lives.kept (h : s.Lives) {handled : Handled} (hkept : Kept s.devices handled.1)
    (hcalls : ∀ call ∈ handled.2, ∀ i, call.deliversTo i = false) : (s.observe handled).Lives := by
  apply h.quiet hkept.length _ hcalls
  intro i before after hbefore hafter hold _
  rw [hkept.active i before hbefore hold] at hafter
  exact (Option.some.inj hafter).symm

theorem knownDevice_eq_some {addr : BtAddrLe} {i : Nat} {dev : BtEnoceanDevice}
    (h : knownDevice devices addr = some (i, dev)) :
    devices[i]? = some dev ∧ dev.active = true ∧ addr = dev.addr := by
  simp only [knownDevice, Option.bind_eq_some_iff, Option.map_eq_some_iff] at h
  obtain ⟨j, hfind, dev', hdev', heq⟩ := h
  cases heq
  obtain ⟨found, hfound, hmatch⟩ := deviceFind_eq_some hfind
  rw [hdev'] at hfound
  cases hfound
  exact ⟨hdev', hmatch⟩

theorem Receiver.Lives.delivered (h : s.Lives) {addr : BtAddrLe} {i : Nat} {dev : BtEnoceanDevice}
    {seq : UInt32}
    {rssi : Int8} {call : Call} (hknown : knownDevice s.devices addr = some (i, dev)) (hnewer : dev.seq < seq)
    (hcall : ∀ j, call.deliversTo j = decide (i = j)) :
    (s.observe (accepted s.devices i seq rssi, [call])).Lives := by
  obtain ⟨hdev, hactive, -⟩ := knownDevice_eq_some hknown
  intro j after hafter hafterActive
  have hlength : (accepted s.devices i seq rssi, [call]).1.length = s.devices.length := List.length_modify ..
  obtain ⟨before, hbefore, hlife⟩ := observe_life hlength hafter
  change (accepted s.devices i seq rssi)[j]? = some after at hafter
  rw [accepted] at hafter
  have hany : [call].any (Call.deliversTo j) = decide (i = j) := by simp [hcall]
  rw [hlife, Life.next, hany]
  by_cases hij : i = j
  · subst hij
    rw [hdev] at hbefore
    cases hbefore
    have hseq : after.seq = seq := by
      rw [List.getElem?_modify_eq, hdev] at hafter
      cases hafter
      rfl
    rw [if_neg (by simp [hactive]), if_pos (by simp), hseq]
    exact (h i dev hdev hactive).deliver hnewer
  · rw [List.getElem?_modify_ne _ _ hij, hbefore] at hafter
    cases hafter
    rw [if_neg (by simp [hafterActive]), if_neg (by simp [hij])]
    exact h j after hbefore hafterActive

theorem Receiver.Lives.advertisement (h : s.Lives) {env : Surroundings} {info : RecvInfo}
    {payload : List UInt8}
    (hexact : Exact env s.devices info payload) : (s.step (.advertisement env info payload)).Lives := by
  rw [Receiver.step]
  cases hrun : advRecv env s.devices info payload with
  | none => exact h
  | some handled =>
    rw [Option.map_some, Option.getD_some]
    cases haddr : info.addr with
    | none =>
      rw [advRecv, haddr] at hrun
      cases hrun
      exact h.kept (Kept.refl s.devices) (by simp)
    | some addr =>
      cases advRecv_effect haddr (hexact addr haddr) hrun with
      | quiet hkept hcalls => exact h.kept hkept hcalls
      | delivered hknown hnewer hverified hcall => exact h.delivered hknown hnewer hcall

theorem Receiver.Lives.step (h : s.Lives) {e : Event} (hproper : Proper s e) : (s.step e).Lives := by
  cases e with
  | advertisement env info payload => exact h.advertisement (hproper.2 env info payload rfl)
  | commission env addr key seq =>
    rw [Receiver.step]
    cases hrun : btEnoceanCommission env s.devices addr key seq with
    | none => exact h
    | some result =>
      obtain ⟨⟨devices', calls⟩, err⟩ := result
      obtain ⟨hkept, hcalls, -⟩ := btEnoceanCommission_cases hrun
      exact h.kept hkept hcalls
  | decommission i =>
    apply h.quiet (List.length_modify ..) _ (by simp)
    intro j before after hbefore hafter _ hactive
    by_cases hij : i = j
    · subst hij
      simp only [List.getElem?_modify_eq, hbefore, Option.map_eq_map, Option.map_some] at hafter
      cases hafter
      rw [inactive_of_flags rfl] at hactive
      cases hactive
    · simp only [List.getElem?_modify_ne _ _ hij] at hafter
      rw [hbefore] at hafter
      exact (Option.some.inj hafter).symm

/-- In every run whose new sensor messages are exact. -/
theorem replay_right (devices : List BtEnoceanDevice) {s : Receiver}
    (hs : Reached Receiver.step Proper (Receiver.init devices) s) : ReplayRight Exact s where
  increasing := hs.invariant (Receiver.Lives.init devices) fun _ _ h hproper => h.step hproper
  caused env info payload handled hexact hrun call hcall i hdelivers := by
    cases haddr : info.addr with
    | none =>
      rw [advRecv, haddr] at hrun
      cases hrun
      exact absurd hcall List.not_mem_nil
    | some addr =>
      cases advRecv_effect haddr (hexact addr haddr) hrun with
      | quiet _ hcalls =>
        rw [hcalls call hcall i] at hdelivers
        cases hdelivers
      | delivered hknown _ hverified hcall' =>
        obtain rfl := List.mem_singleton.mp hcall
        rw [hcall' i, decide_eq_true_eq] at hdelivers
        subst hdelivers
        obtain ⟨hdev, hactive, rfl⟩ := knownDevice_eq_some hknown
        exact ⟨_, hdev, hactive, rfl, hverified⟩
  unverified env info payload handled hexact hrun hnone := by
    cases haddr : info.addr with
    | none =>
      rw [advRecv, haddr] at hrun
      cases hrun
      exact Kept.refl s.devices
    | some addr =>
      cases advRecv_effect haddr (hexact addr haddr) hrun with
      | quiet hkept _ => exact hkept
      | delivered hknown _ hverified _ =>
        obtain ⟨hdev, hactive, rfl⟩ := knownDevice_eq_some hknown
        exact absurd hverified (hnone _ (List.mem_of_getElem? hdev) hactive haddr)

def sensor : BtEnoceanDevice where
  seq := 0
  flags := FLAG_ACTIVE
  rssi := 0
  addr := ⟨BT_ADDR_LE_RANDOM, [1, 2, 3, 4, 5, 6]⟩
  key := List.replicate 16 7

def voltage : List UInt8 := [14, 0xff, 0xda, 3, 1, 0, 0, 0, 0x41, 200, 0]

def signedVoltage : Surroundings :=
  { listening with ccmDecrypt := fun _ _ payload signature => if payload = voltage ∧
    signature = [9, 9, 9, 9] then 0 else -1 }

theorem signedVoltage_right : ReplayRight Exact
    ((Receiver.init [sensor]).step (.advertisement signedVoltage sender (voltage ++ [9, 9, 9, 9]))) := by
  apply replay_right [sensor]
  apply Reached.start.next
  refine ⟨(by decide : (advRecv signedVoltage [sensor] sender (voltage ++ [9, 9, 9, 9])).isSome), ?_⟩
  rintro env info payload ⟨⟩ addr - i dev - - - -
  decide

/-- An occupancy that has not been signed is put between the message and its signature. -/
theorem forgedOccupancy_delivered : ¬ ∀ devices s, Reached Receiver.step Readable (Receiver.init devices) s →
    ReplayRight (fun _ _ _ _ => True) s := by
  intro h
  have hright := h [sensor] _ .start
  have hrun : advRecv signedVoltage [sensor] sender (voltage ++ [0x20, 2] ++ [9, 9, 9, 9]) =
      some (accepted [sensor] 0 1 (-40),
        [.sensor 0 { batteryVoltage := some 100, occupancy := some true } []]) := by
    decide
  obtain ⟨dev, hdev, -, -, -, hverified⟩ := hright.caused _ _ _ _ trivial hrun _ List.mem_cons_self 0 rfl
  cases hdev
  exact absurd hverified (by decide)

end Runs

end SdkNrf.Enocean
