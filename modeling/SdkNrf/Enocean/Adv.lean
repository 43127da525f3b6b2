import SdkNrf.Framework.Words

/-!
# EnOcean advertisements

The receiver of `subsys/bluetooth/enocean.c` on the payload of one advertisement.
-/

namespace SdkNrf.Enocean

/-- `bt_addr_le_t`. -/
structure BtAddrLe where
  type : UInt8
  val : List UInt8
  deriving DecidableEq, Repr

/-- `struct bt_enocean_device`. -/
structure BtEnoceanDevice where
  seq : UInt32
  flags : UInt8
  rssi : Int8
  addr : BtAddrLe
  key : List UInt8
  deriving DecidableEq, Repr

/-- `struct bt_le_scan_recv_info`; there need not be an address. -/
structure RecvInfo where
  advType : UInt8
  addr : Option BtAddrLe
  rssi : Int8
  deriving DecidableEq, Repr

/-- `struct bt_enocean_sensor_data`. -/
structure SensorData where
  occupancy : Option Bool := none
  lightSensor : Option UInt16 := none
  batteryVoltage : Option UInt16 := none
  lightSolarCell : Option UInt16 := none
  energyLvl : Option UInt8 := none
  deriving DecidableEq, Repr

/-- What is called of `struct bt_enocean_callbacks`, with the place of the device. -/
inductive Call
  | commissioned (dev : Nat)
  | button (dev : Nat) (action changed : UInt8) (optData : List UInt8)
  | sensor (dev : Nat) (data : SensorData) (optData : List UInt8)
  deriving DecidableEq, Repr

/-- The callbacks that are not null, the mode, what the application and the storage do with a new device, the
result of `bt_ccm_decrypt` for a key, the nonce, the payload and the signature, and the addresses of bytes. -/
structure Surroundings where
  button : Bool
  sensor : Bool
  commissioned : Bool
  commissioning : Bool
  rejects : Bool
  storeErr : Int
  ccmDecrypt : List UInt8 → List UInt8 × UInt32 → List UInt8 → List UInt8 → Int
  addressOf : List UInt8 → UInt32

abbrev Handled := List BtEnoceanDevice × List Call

def SIGNATURE_LEN : Nat := 4

def FLAG_ACTIVE : UInt8 := 1

def FLAG_DIRTY : UInt8 := 2

def DATA_TYPE_COMMISSIONING : UInt8 := 0x3e

def DATA_TYPE_LIGHT_LEVEL_SENSOR : UInt8 := 0x05

def DATA_TYPE_OCCUPANCY : UInt8 := 0x20

def DATA_TYPE_BATTERY : UInt8 := 0x01

def DATA_TYPE_ENERGY_LEVEL : UInt8 := 0x02

def DATA_TYPE_LIGHT_LEVEL_SOLAR_CELL : UInt8 := 0x04

def DATA_TYPE_OPTIONAL_DATA : UInt8 := 0x3c

def BT_GAP_ADV_TYPE_ADV_NONCONN_IND : UInt8 := 0x03

def BT_ADDR_LE_RANDOM : UInt8 := 0x01

def BT_DATA_NAME_SHORTENED : UInt8 := 0x08

def BT_DATA_MANUFACTURER_DATA : UInt8 := 0xff

def EBUSY : Int := 16

def EEXIST : Int := 17

def EINVAL : Int := 22

def ENOMEM : Int := 12

def ECANCELED : Int := 140

/-- `net_buf_simple_pull`, and `net_buf_simple_pull_mem`: the bytes from the old place on, and the rest. -/
def pullMem (len : Nat) (buf : List UInt8) : Option (List UInt8 × List UInt8) :=
  if buf.length < len then none else some (buf, buf.drop len)

/-- `net_buf_simple_pull_u8`. -/
def pullU8 (buf : List UInt8) : Option (UInt8 × List UInt8) :=
  (pullMem 1 buf).map fun (data, rest) => (data.getD 0 0, rest)

/-- `net_buf_simple_pull_le16`. -/
def pullLe16 (buf : List UInt8) : Option (UInt16 × List UInt8) :=
  (pullMem 2 buf).map fun (data, rest) => (UInt16.ofNat (leValue (data.take 2)), rest)

/-- `net_buf_simple_pull_le32`. -/
def pullLe32 (buf : List UInt8) : Option (UInt32 × List UInt8) :=
  (pullMem 4 buf).map fun (data, rest) => (UInt32.ofNat (leValue (data.take 4)), rest)

def BtEnoceanDevice.active (dev : BtEnoceanDevice) : Bool := dev.flags &&& FLAG_ACTIVE ≠ 0

def deviceFind (devices : List BtEnoceanDevice) (addr : BtAddrLe) : Option Nat :=
  devices.findIdx? fun dev => dev.active ∧ addr = dev.addr

def knownDevice (devices : List BtEnoceanDevice) (addr : BtAddrLe) : Option (Nat × BtEnoceanDevice) :=
  (deviceFind devices addr).bind fun i => devices[i]?.map fun dev => (i, dev)

/-- The place that `device_alloc` takes. -/
def freeSlot (devices : List BtEnoceanDevice) : Option Nat := devices.findIdx? fun dev => ¬ dev.active

/-- `bt_enocean_commission`, with the bytes at the key pointer. A device that the application rejects in its
callback is decommissioned there. -/
def btEnoceanCommission (env : Surroundings) (devices : List BtEnoceanDevice) (addr : BtAddrLe)
    (key : List UInt8) (seq : UInt32) : Option (Handled × Int) :=
  match deviceFind devices addr with
  | some _ => some ((devices, []), -EEXIST)
  | none =>
    match freeSlot devices with
    | none => some ((devices, []), -ENOMEM)
    | some i =>
      if key.length < 16 then none
      else
        let devices := devices.modify i fun dev =>
          { dev with addr, seq, key := key.take 16, flags := FLAG_ACTIVE }
        let calls := if env.commissioned then [Call.commissioned i] else []
        if env.commissioned ∧ env.rejects then
          some ((devices.modify i fun dev => { dev with flags := 0 }, calls), -ECANCELED)
        else if env.storeErr ≠ 0 then some ((devices, calls), -EBUSY)
        else some ((devices, calls), 0)

/-- `auth`: the decryption reads the payload up to the length, and the signature. -/
def auth (env : Surroundings) (dev : BtEnoceanDevice) (seq : UInt32)
    (signature payload : List UInt8) (len : Nat) :
    Option Int :=
  if payload.length < len ∨ signature.length < SIGNATURE_LEN then none
  else some (env.ccmDecrypt dev.key (dev.addr.val, seq) (payload.take len) (signature.take SIGNATURE_LEN))

def accepted (devices : List BtEnoceanDevice) (i : Nat) (seq : UInt32) (rssi : Int8) : List BtEnoceanDevice :=
  devices.modify i fun dev => { dev with seq, rssi, flags := dev.flags ||| FLAG_DIRTY }

def handleSwitchCommissioning (env : Surroundings) (devices : List BtEnoceanDevice) (addr : BtAddrLe)
    (buf : List UInt8) (hasShortName : Bool) : Option (Handled × Int) :=
  (pullLe32 buf).bind fun (seq, buf) =>
    (pullMem 16 buf).bind fun (key, buf) =>
      if hasShortName = false ∧ buf.length ≠ 6 then some ((devices, []), -EINVAL)
      else btEnoceanCommission env devices addr key seq

def handleSwitchData (env : Surroundings) (devices : List BtEnoceanDevice) (addr : BtAddrLe) (rssi : Int8)
    (buf payload : List UInt8) : Option Handled :=
  if env.button = false then some (devices, [])
  else
    match knownDevice devices addr with
    | none => some (devices, [])
    | some (i, dev) =>
      (pullLe32 buf).bind fun (seq, buf) =>
        if seq ≤ dev.seq then some (devices, [])
        else
          (pullU8 buf).bind fun (status, buf) =>
            if status &&& 0xe0 ≠ 0 then some (devices, [])
            else if buf.length < SIGNATURE_LEN then none
            else if buf.length - SIGNATURE_LEN ∉ [0, 1, 2, 4] then some (devices, [])
            else
              let optDataLen := buf.length - SIGNATURE_LEN
              (pullMem optDataLen buf).bind fun (optData, buf) =>
                (pullMem SIGNATURE_LEN buf).bind fun (signature, _) =>
                  (auth env dev seq signature payload (9 + optDataLen)).map fun (err : Int) =>
                    if err ≠ 0 then (devices, [])
                    else (accepted devices i seq rssi,
                      [.button i (status &&& 1) (status >>> 1) (optData.take optDataLen)])

/-- `struct data_entry`; where the entry is no pointer, nothing is read through it. -/
structure DataEntry where
  type : UInt8
  len : UInt8
  value : UInt32
  pointer : List UInt8
  deriving DecidableEq, Repr

def dataEntryPull (env : Surroundings) (buf : List UInt8) : Option (DataEntry × List UInt8) :=
  (pullU8 buf).bind fun (header, buf) =>
    let type := header &&& 0x3f
    if header >>> 6 = 3 ∨ type = DATA_TYPE_OPTIONAL_DATA then
      (pullU8 buf).bind fun (len, buf) =>
        (pullMem len.toNat buf).map fun (pointer, buf) => (⟨type, len, env.addressOf pointer, pointer⟩, buf)
    else if type = DATA_TYPE_COMMISSIONING then
      (pullMem 22 buf).map fun (pointer, buf) => (⟨type, 22, env.addressOf pointer, pointer⟩, buf)
    else if header >>> 6 = 0 then
      (pullU8 buf).map fun (value, buf) => (⟨type, 1, value.toUInt32, []⟩, buf)
    else if header >>> 6 = 1 then
      (pullLe16 buf).map fun (value, buf) => (⟨type, 2, value.toUInt32, []⟩, buf)
    else (pullLe32 buf).map fun (value, buf) => (⟨type, 4, value, []⟩, buf)

/-- The entries that `handle_sensor_data` has read: the data and the optional data. -/
structure Collected where
  data : SensorData := {}
  optData : List UInt8 := []
  deriving DecidableEq, Repr

/-- The cases of the loop of `handle_sensor_data`. -/
def Collected.add (collected : Collected) (entry : DataEntry) : Collected :=
  let data := collected.data
  if entry.type = DATA_TYPE_BATTERY then
    { collected with data := { data with batteryVoltage := some (entry.value / 2).toUInt16 } }
  else if entry.type = DATA_TYPE_ENERGY_LEVEL then
    { collected with data := { data with energyLvl := some (entry.value / 2).toUInt8 } }
  else if entry.type = DATA_TYPE_LIGHT_LEVEL_SENSOR then
    { collected with data := { data with lightSensor := some entry.value.toUInt16 } }
  else if entry.type = DATA_TYPE_LIGHT_LEVEL_SOLAR_CELL then
    { collected with data := { data with lightSolarCell := some entry.value.toUInt16 } }
  else if entry.type = DATA_TYPE_OCCUPANCY then
    { collected with data := { data with occupancy := some (entry.value = 2) } }
  else if entry.type = DATA_TYPE_OPTIONAL_DATA then
    { collected with optData := entry.pointer.take entry.len.toNat }
  else collected

/-- The loop of `handle_sensor_data`: what is left of the buffer and what was read, or nothing at an entry for
commissioning. The fuel is the length of the buffer. -/
def sensorEntries (env : Surroundings) :
    Nat → List UInt8 → Collected → Option (Option (List UInt8 × Collected))
  | 0, buf, collected => if buf.length < 2 + SIGNATURE_LEN then some (some (buf, collected)) else none
  | fuel + 1, buf, collected =>
    if buf.length < 2 + SIGNATURE_LEN then some (some (buf, collected))
    else
      (dataEntryPull env buf).bind fun (entry, buf) =>
        if entry.type = DATA_TYPE_COMMISSIONING then some none
        else sensorEntries env fuel buf (collected.add entry)

def handleSensorData (env : Surroundings) (devices : List BtEnoceanDevice) (addr : BtAddrLe) (rssi : Int8)
    (buf payload : List UInt8) (totLen : Nat) : Option Handled :=
  if env.sensor = false then some (devices, [])
  else
    (pullLe32 buf).bind fun (seq, buf) =>
      match knownDevice devices addr with
      | none =>
        (dataEntryPull env buf).bind fun (entry, _) =>
          if entry.type ≠ DATA_TYPE_COMMISSIONING ∨ env.commissioning = false then some (devices, [])
          else (btEnoceanCommission env devices addr entry.pointer seq).map Prod.fst
      | some (i, dev) =>
        if seq ≤ dev.seq then some (devices, [])
        else
          (sensorEntries env buf.length buf {}).bind fun read =>
            match read with
            | none => some (devices, [])
            | some (buf, collected) =>
              if buf.length ≠ SIGNATURE_LEN then some (devices, [])
              else
                (pullMem SIGNATURE_LEN buf).bind fun (signature, _) =>
                  (auth env dev seq signature payload totLen).map fun (err : Int) =>
                    if err ≠ 0 then (devices, [])
                    else (accepted devices i seq rssi, [.sensor i collected.data collected.optData])

/-- The part of `adv_recv` behind the manufacturer of a message without a shortened name. -/
def recvData (env : Surroundings) (devices : List BtEnoceanDevice) (addr : BtAddrLe) (rssi : Int8)
    (buf payload : List UInt8) (len : UInt8) : Option Handled :=
  if payload.length ≤ 8 then none
  else if payload.getD 8 0 &&& 0xe0 = 0 ∧ 12 ≤ len ∧ len ≤ 16 then
    handleSwitchData env devices addr rssi buf payload
  else
    (if len = 29 ∧ env.commissioning = true then handleSwitchCommissioning env devices addr buf false
      else some ((devices, []), -EINVAL)).bind fun ((devices, calls), err) =>
        if err = 0 then some (devices, calls)
        else if len.toNat + 1 < SIGNATURE_LEN then none
        else
          (handleSensorData env devices addr rssi buf payload (len.toNat + 1 - SIGNATURE_LEN)).map
            fun (devices, more) => (devices, calls ++ more)

/-- The part of `adv_recv` behind the header of the manufacturer data, or of the data behind the name. -/
def recvStructure (env : Surroundings) (devices : List BtEnoceanDevice) (addr : BtAddrLe) (rssi : Int8)
    (buf payload : List UInt8) (len type : UInt8) (hasShortenedName : Bool) : Option Handled :=
  if type ≠ BT_DATA_MANUFACTURER_DATA then some (devices, [])
  else
    (pullLe16 buf).bind fun (manufacturer, buf) =>
      if manufacturer ≠ 0x03da then some (devices, [])
      else if hasShortenedName then
        if len = 23 ∧ env.commissioning = true then
          (handleSwitchCommissioning env devices addr buf true).map Prod.fst
        else some (devices, [])
      else recvData env devices addr rssi buf payload len

/-- The part of `adv_recv` behind the first length and type. -/
def recvPayload (env : Surroundings) (devices : List BtEnoceanDevice) (addr : BtAddrLe) (rssi : Int8)
    (payload : List UInt8) (len type : UInt8) (buf : List UInt8) : Option Handled :=
  if type = BT_DATA_NAME_SHORTENED then
    if len.toNat < 1 then none
    else
      (pullMem (len.toNat - 1) buf).bind fun (_, payload) =>
        (pullU8 payload).bind fun (len, buf) =>
          (pullU8 buf).bind fun (type, buf) => recvStructure env devices addr rssi buf payload len type true
  else recvStructure env devices addr rssi buf payload len type false

def advRecv (env : Surroundings) (devices : List BtEnoceanDevice) (info : RecvInfo) (buf : List UInt8) :
    Option Handled :=
  match info.addr with
  | none => some (devices, [])
  | some addr =>
    if info.advType ≠ BT_GAP_ADV_TYPE_ADV_NONCONN_IND ∨ addr.type ≠ BT_ADDR_LE_RANDOM then some (devices, [])
    else
      (pullU8 buf).bind fun (len, rest) =>
        (pullU8 rest).bind fun (type, rest) => recvPayload env devices addr info.rssi buf len type rest

end SdkNrf.Enocean
