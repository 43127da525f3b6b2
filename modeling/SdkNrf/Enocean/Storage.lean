import SdkNrf.Enocean.Replay

/-!
# Storage of EnOcean devices

The table of devices of `subsys/bluetooth/enocean.c` and its entries in the settings, with
`CONFIG_BT_ENOCEAN_STORE` and `CONFIG_BT_ENOCEAN_STORE_SEQ`.
-/

namespace SdkNrf.Enocean

structure DeviceEntry where
  addr : BtAddrLe
  key : List UInt8
  deriving DecidableEq, Repr

/-- The entries with the tags `d` and `s`, by the index in their names. -/
structure Settings where
  device : Nat → Option DeviceEntry
  seq : Nat → Option UInt32

structure Table where
  devices : List BtEnoceanDevice
  settings : Settings
  work : Bool

structure Results where
  device : Int
  seq : Int
  deriving DecidableEq, Repr

def Results.succeed (results : Results) : Bool := results.device = 0 ∧ results.seq = 0

/-- The index in the name of an entry: `encode_tag` takes it as `uint8_t`. -/
def encodeTag (index : Nat) : Nat := index % 2 ^ 8

def BtEnoceanDevice.dirty (dev : BtEnoceanDevice) : Bool := dev.flags &&& FLAG_DIRTY ≠ 0

namespace Settings

/-- `settings_save_one` of a device. -/
def saveDevice (s : Settings) (index : Nat) (entry : DeviceEntry) : Settings :=
  { s with device := Function.update s.device (encodeTag index) (some entry) }

/-- `settings_save_one` of a sequence number. -/
def saveSeq (s : Settings) (index : Nat) (seq : UInt32) : Settings :=
  { s with seq := Function.update s.seq (encodeTag index) (some seq) }

/-- `settings_delete` of the two entries; its results are not looked at. -/
def delete (s : Settings) (index : Nat) (results : Results) : Settings where
  device := if results.device = 0 then Function.update s.device (encodeTag index) none else s.device
  seq := if results.seq = 0 then Function.update s.seq (encodeTag index) none else s.seq

def storeNewDev (s : Settings) (index : Nat) (dev : BtEnoceanDevice) (results : Results) : Settings × Int :=
  if results.device ≠ 0 then (s, results.device)
  else
    let s := s.saveDevice index ⟨dev.addr, dev.key⟩
    if results.seq ≠ 0 then (s, results.seq) else (s.saveSeq index dev.seq, 0)

end Settings

namespace Table

def btEnoceanDecommission (t : Table) (i : Nat) (results : Results) : Table :=
  { t with
    devices := t.devices.modify i fun dev => { dev with flags := 0 }
    settings := t.settings.delete i results }

def decommissionAll (t : Table) (callback : List (Nat × Results)) : Table :=
  callback.foldl (fun t c => t.btEnoceanDecommission c.1 c.2) t

/-- What `bt_enocean_commission` leaves and returns, and what the application has decommissioned. -/
structure Commissioned where
  table : Table
  err : Int
  removed : List Nat

def btEnoceanCommission (t : Table) (addr : BtAddrLe) (key : List UInt8) (seq : UInt32)
    (callback : List (Nat × Results)) (results : Results) : Commissioned :=
  match deviceFind t.devices addr with
  | some _ => ⟨t, -EEXIST, []⟩
  | none =>
    match freeSlot t.devices with
    | none => ⟨t, -ENOMEM, []⟩
    | some i =>
      let dev : BtEnoceanDevice → BtEnoceanDevice := fun dev =>
        { dev with addr, seq, key := key.take 16, flags := FLAG_ACTIVE }
      let t := { t with devices := t.devices.modify i dev }.decommissionAll callback
      match t.devices[i]?.filter BtEnoceanDevice.active with
      -- the user might reject the device inside the callback
      | none => ⟨t, -ECANCELED, callback.map Prod.fst⟩
      | some dev =>
        let (settings, err) := t.settings.storeNewDev i dev results
        ⟨{ t with settings }, if err ≠ 0 then -EBUSY else 0, callback.map Prod.fst⟩

/-- A message of the device at a place is accepted; `schedule_store` follows. -/
def receive (t : Table) (i : Nat) (seq : UInt32) (rssi : Int8) : Table :=
  { t with
    devices := accepted t.devices i seq rssi
    work := true }

/-- The loop of `store_dirty` from a place on: the devices, their entries, and `err`, which is
returned as it was where nothing is dirty. -/
def storeDirtyFrom (results : Nat → Int) :
    Nat → List BtEnoceanDevice → Settings → Int → List BtEnoceanDevice × Settings × Int
  | _, [], settings, err => ([], settings, err)
  | i, dev :: rest, settings, err =>
    if dev.dirty = false then
      let (rest, settings, err) := storeDirtyFrom results (i + 1) rest settings err
      (dev :: rest, settings, err)
    else if results i ≠ 0 then (dev :: rest, settings, results i)
    else
      let (rest, settings, err) := storeDirtyFrom results (i + 1) rest (settings.saveSeq i dev.seq)
        (results i)
      ({ dev with flags := dev.flags &&& ~~~FLAG_DIRTY } :: rest, settings, err)

/-- `store_dirty`; `err` has any value before the first device is stored. -/
def storeDirty (t : Table) (results : Nat → Int) (err : Int) : Table :=
  let (devices, settings, err) := storeDirtyFrom results 0 t.devices t.settings err
  { devices, settings, work := err ≠ 0 }

end Table

inductive Entry
  | device (index : Nat) (entry : DeviceEntry)
  | seq (index : Nat) (seq : UInt32)
  deriving DecidableEq, Repr

/-- `settings_set`; an index behind the table is an error. -/
def settingsSet (devices : List BtEnoceanDevice) : Entry → List BtEnoceanDevice
  | .device index entry => devices.modify index fun dev =>
    { dev with
      addr := entry.addr
      key := entry.key
      flags := dev.flags ||| FLAG_ACTIVE }
  | .seq index seq => devices.modify index fun dev => { dev with seq }

def emptyDevice : BtEnoceanDevice where
  seq := 0
  flags := 0
  rssi := 0
  addr := ⟨0, List.replicate 6 0⟩
  key := List.replicate 16 0

/-- The entries are loaded into an empty table of `n` devices. -/
def loadEntries (n : Nat) (entries : List Entry) : List BtEnoceanDevice :=
  entries.foldl settingsSet (List.replicate n emptyDevice)

structure EntriesOf (settings : Settings) (entries : List Entry) : Prop where
  device : ∀ index entry, .device index entry ∈ entries ↔ settings.device index = some entry
  seq : ∀ index seq, .seq index seq ∈ entries ↔ settings.seq index = some seq

def activeAt (devices : List BtEnoceanDevice) (i : Nat) : Option (DeviceEntry × UInt32) :=
  (devices[i]?.filter BtEnoceanDevice.active).map fun dev => (⟨dev.addr, dev.key⟩, dev.seq)

/-- The table; whether all operations of the settings have succeeded; whether the store work has run
since the last message was accepted; and whether each commissioning that returned an error left the
active devices as they were, apart from those that the application decommissioned. -/
structure Storage where
  table : Table
  succeeded : Bool
  stored : Bool
  unchanged : Bool

inductive StorageEvent
  | commission (addr : BtAddrLe) (key : List UInt8) (seq : UInt32) (callback : List (Nat × Results))
    (results : Results)
  | decommission (i : Nat) (results : Results)
  | receive (i : Nat) (seq : UInt32) (rssi : Int8)
  | expired (results : Nat → Int) (err : Int)

def withoutAt (devices : List BtEnoceanDevice) (removed : List Nat) (i : Nat) :
    Option (DeviceEntry × UInt32) :=
  if i ∈ removed then none else activeAt devices i

def Storage.step (s : Storage) : StorageEvent → Storage
  | .commission addr key seq callback results =>
    let result := s.table.btEnoceanCommission addr key seq callback results
    { s with
      table := result.table
      succeeded := s.succeeded ∧ results.succeed ∧ callback.all fun c => c.2.succeed
      unchanged := s.unchanged ∧ (result.err ≠ 0 → ∀ i < s.table.devices.length,
        activeAt result.table.devices i = withoutAt s.table.devices result.removed i) }
  | .decommission i results =>
    { s with
      table := s.table.btEnoceanDecommission i results
      succeeded := s.succeeded ∧ results.succeed }
  | .receive i seq rssi =>
    { s with
      table := s.table.receive i seq rssi
      stored := false }
  | .expired results err =>
    { s with
      table := s.table.storeDirty results err
      succeeded := s.succeeded ∧ ∀ i < s.table.devices.length, results i = 0
      stored := true }

/-- An empty table of `n` devices without entries. -/
def Storage.init (n : Nat) : Storage where
  table := ⟨List.replicate n emptyDevice, ⟨fun _ => none, fun _ => none⟩, false⟩
  succeeded := true
  stored := true
  unchanged := true

end SdkNrf.Enocean
