import Mathlib

/-!
# A-GPS data from nRF Cloud

`nrf_cloud_agps_process`: a message is a version byte and groups of a type, a 16-bit count and that many
elements.
-/

namespace SdkNrf.Agps

/-- `enum nrf_cloud_agps_type`. -/
inductive AgpsType
  | utcParameters
  | ephemerides
  | almanac
  | klobucharCorrection
  | nequickCorrection
  | gpsTows
  | gpsSystemClock
  | location
  | integrity
  deriving DecidableEq, Repr

namespace AgpsType

def code : AgpsType → Nat
  | utcParameters => 1
  | ephemerides => 2
  | almanac => 3
  | klobucharCorrection => 4
  | nequickCorrection => 5
  | gpsTows => 6
  | gpsSystemClock => 7
  | location => 8
  | integrity => 9

def ofCode : Nat → Option AgpsType
  | 1 => some utcParameters
  | 2 => some ephemerides
  | 3 => some almanac
  | 4 => some klobucharCorrection
  | 5 => some nequickCorrection
  | 6 => some gpsTows
  | 7 => some gpsSystemClock
  | 8 => some location
  | 9 => some integrity
  | _ => none

theorem ofCode_code (t : AgpsType) : ofCode t.code = some t := by cases t <;> rfl

theorem code_lt (t : AgpsType) : t.code < 256 := by cases t <;> decide

end AgpsType

structure Field where
  name : String
  width : Nat
  deriving DecidableEq, Repr

def sizeOfFields (fields : List Field) : Nat := (fields.map Field.width).sum

def utcFields : List Field :=
  [⟨"a1", 4⟩, ⟨"a0", 4⟩, ⟨"tot", 1⟩, ⟨"wn_t", 1⟩, ⟨"delta_tls", 1⟩, ⟨"wn_lsf", 1⟩, ⟨"dn", 1⟩,
    ⟨"delta_tlsf", 1⟩]

def ephemerisFields : List Field :=
  [⟨"sv_id", 1⟩, ⟨"health", 1⟩, ⟨"iodc", 2⟩, ⟨"toc", 2⟩, ⟨"af2", 1⟩, ⟨"af1", 2⟩, ⟨"af0", 4⟩,
    ⟨"tgd", 1⟩, ⟨"ura", 1⟩, ⟨"fit_int", 1⟩, ⟨"toe", 2⟩, ⟨"w", 4⟩, ⟨"delta_n", 2⟩, ⟨"m0", 4⟩,
    ⟨"omega_dot", 4⟩, ⟨"e", 4⟩, ⟨"idot", 2⟩, ⟨"sqrt_a", 4⟩, ⟨"i0", 4⟩, ⟨"omega0", 4⟩, ⟨"crs", 2⟩,
    ⟨"cis", 2⟩, ⟨"cus", 2⟩, ⟨"crc", 2⟩, ⟨"cic", 2⟩, ⟨"cuc", 2⟩]

def almanacFields : List Field :=
  [⟨"sv_id", 1⟩, ⟨"wn", 1⟩, ⟨"toa", 1⟩, ⟨"ioda", 1⟩, ⟨"e", 2⟩, ⟨"delta_i", 2⟩, ⟨"omega_dot", 2⟩,
    ⟨"sv_health", 1⟩, ⟨"sqrt_a", 4⟩, ⟨"omega0", 4⟩, ⟨"w", 4⟩, ⟨"m0", 4⟩, ⟨"af0", 2⟩, ⟨"af1", 2⟩]

def klobucharFields : List Field :=
  [⟨"alpha0", 1⟩, ⟨"alpha1", 1⟩, ⟨"alpha2", 1⟩, ⟨"alpha3", 1⟩, ⟨"beta0", 1⟩, ⟨"beta1", 1⟩,
    ⟨"beta2", 1⟩, ⟨"beta3", 1⟩]

def towFields : List Field := [⟨"sv_id", 1⟩, ⟨"tlm", 2⟩, ⟨"flags", 1⟩]

/-- `struct nrf_cloud_agps_system_time` in front of `sv_tow`. -/
def systemTimeFields : List Field :=
  [⟨"date_day", 2⟩, ⟨"time_full_s", 4⟩, ⟨"time_frac_ms", 2⟩, ⟨"sv_mask", 4⟩]

def locationFields : List Field :=
  [⟨"latitude", 4⟩, ⟨"longitude", 4⟩, ⟨"altitude", 2⟩, ⟨"unc_semimajor", 1⟩, ⟨"unc_semiminor", 1⟩,
    ⟨"orientation_major", 1⟩, ⟨"unc_altitude", 1⟩, ⟨"confidence", 1⟩]

def integrityFields : List Field := [⟨"integrity_mask", 4⟩]

def fieldsOf : AgpsType → List Field
  | .utcParameters => utcFields
  | .ephemerides => ephemerisFields
  | .almanac => almanacFields
  | .klobucharCorrection => klobucharFields
  | .nequickCorrection => []
  | .gpsTows => towFields
  | .gpsSystemClock => systemTimeFields
  | .location => locationFields
  | .integrity => integrityFields

/-- `NRF_CLOUD_AGPS_MAX_SV_TOW`. -/
def maxSvTow : Nat := 32

def readLe (buf : Nat → UInt8) (off : Nat) : Nat → Nat
  | 0 => 0
  | width + 1 => (buf off).toNat + 256 * readLe buf (off + 1) width

def readFields (buf : Nat → UInt8) (off : Nat) : List Field → List (String × Nat)
  | [] => []
  | f :: fields => (f.name, readLe buf off f.width) :: readFields buf (off + f.width) fields

structure Tow where
  flags : Nat
  tlm : Nat
  deriving DecidableEq, Repr

/-- `sv_id` of the `nrf_cloud_agps_tow_element` at an offset. -/
def svIdAt (buf : Nat → UInt8) (off : Nat) : Nat := (buf off).toNat

def towAt (buf : Nat → UInt8) (off : Nat) : Tow := ⟨(buf (off + 3)).toNat, readLe buf (off + 1) 2⟩

/-- `sv_mask` of the system time at an offset. -/
def svMaskAt (buf : Nat → UInt8) (off : Nat) : Nat := readLe buf (off + 8) 4

structure Sent where
  type : AgpsType
  values : List (String × Nat)
  svTow : List Tow
  deriving DecidableEq, Repr

/-- The array that `copy_time_and_tow` fills in. -/
def copyTows (buf : Nat → UInt8) (off : Nat) : List Tow :=
  if svMaskAt buf off = 0 then List.replicate maxSvTow ⟨0, 0⟩
  else (List.range maxSvTow).map fun i => towAt buf (off + 12 + 4 * i)

def copyTimeAndTow (buf : Nat → UInt8) (off : Nat) : Sent :=
  ⟨.gpsSystemClock, readFields buf off systemTimeFields, copyTows buf off⟩

/-- What `agps_send_to_modem` sends: every member of the element, under its name. -/
def agpsSendToModem (buf : Nat → UInt8) (t : AgpsType) (off : Nat) : Sent :=
  match t with
  | .gpsSystemClock => copyTimeAndTow buf off
  | t => ⟨t, readFields buf off (fieldsOf t), []⟩

def readLength (buf : Nat → UInt8) (t : AgpsType) (off : Nat) : Nat :=
  if t = .gpsSystemClock ∧ svMaskAt buf off ≠ 0 then sizeOfFields systemTimeFields + 4 * maxSvTow
  else sizeOfFields (fieldsOf t)

/-- The static variables of `get_next_agps_element`. -/
structure Statics where
  elementsLeftToProcess : Nat
  elementType : Nat
  deriving DecidableEq, Repr

def elementLength : AgpsType → Nat
  | .nequickCorrection => 0
  | .gpsSystemClock => sizeOfFields systemTimeFields + 4
  | t => sizeOfFields (fieldsOf t)

def handled (code : Nat) : Option AgpsType :=
  (AgpsType.ofCode code).filter fun t => elementLength t ≠ 0

def headerLength : Nat := 3

def headerBefore (s : Statics) : Nat := if s.elementsLeftToProcess = 0 then headerLength else 0

/-- `get_next_agps_element` on the static variables. -/
def nextStatics (s : Statics) (buf : Nat → UInt8) : Statics :=
  if s.elementsLeftToProcess = 0 then
    { elementsLeftToProcess := (readLe buf 1 2 + (2 ^ 16 - 1)) % 2 ^ 16
      elementType := (buf 0).toNat }
  else { s with elementsLeftToProcess := s.elementsLeftToProcess - 1 }

/-- A call of `nrf_cloud_agps_process`: the buffer, the memory behind it, whether there is a socket
or a device, and what it answers to each structure that is sent. -/
structure Call where
  buf : List UInt8
  behind : Nat → UInt8
  device : Bool
  modem : Nat → Int

def Call.mem (c : Call) (i : Nat) : UInt8 :=
  if i < c.buf.length then c.buf.getD i 0 else c.behind (i - c.buf.length)

/-- `&buf[off]`. -/
def Call.from (c : Call) (off : Nat) : Nat → UInt8 := fun i => c.mem (off + i)

/-- What a call does: the first byte and the number of bytes of every read, the indices in
`sys_time.sv_tow` that are written, the structures that are sent, and the result. -/
structure Outcome where
  statics : Statics
  reads : List (Nat × Nat)
  towWrites : List Int
  sent : List Sent
  err : Int

def ENODEV : Int := 19

/-- The loop of `nrf_cloud_agps_process`, from `parsed_len` on. -/
def loop (c : Call) : Nat → Nat → Outcome → Outcome
  | 0, _, o => o
  | fuel + 1, parsedLen, o =>
    if parsedLen < c.buf.length then
      let header := headerBefore o.statics
      let data := parsedLen + header
      let statics := nextStatics o.statics (c.from parsedLen)
      let o := { o with statics, reads := o.reads ++ [(parsedLen, header)] }
      match handled statics.elementType with
      | none => o
      | some t =>
        let o := { o with reads := o.reads ++ [(data, readLength c.mem t data)] }
        if t = .gpsTows then
          loop c fuel (data + elementLength t)
            { o with towWrites := o.towWrites ++ [(svIdAt c.mem data : Int) - 1] }
        else
          let err := c.modem o.sent.length
          let o := { o with sent := o.sent ++ [agpsSendToModem c.mem t data] }
          if err ≠ 0 then { o with err } else loop c fuel (data + elementLength t) o
    else o

/-- `nrf_cloud_agps_process`. The assertion about the version is not compiled in. -/
def process (s : Statics) (c : Call) : Outcome :=
  let o : Outcome := ⟨s, [(0, 1)], [], [], 0⟩
  if c.device then loop c c.buf.length 1 o else { o with err := -ENODEV }

structure Group where
  type : AgpsType
  elements : List (List UInt8)
  handled : elementLength type ≠ 0
  nonempty : elements ≠ []
  length_lt : elements.length < 2 ^ 16
  lengths : ∀ b ∈ elements, b.length = elementLength type

def Group.header (g : Group) : List UInt8 :=
  [UInt8.ofNat g.type.code, UInt8.ofNat g.elements.length, UInt8.ofNat (g.elements.length / 2 ^ 8)]

def Group.encode (g : Group) : List UInt8 := g.header ++ g.elements.flatten

/-- `NRF_CLOUD_AGPS_BIN_SCHEMA_VERSION` and the groups. -/
def encode (groups : List Group) : List UInt8 := 1 :: groups.flatMap Group.encode

end SdkNrf.Agps
