import SdkNrf.Framework.ExceptRun
import SdkNrf.Framework.Words

/-!
# Scalar formats of the mesh sensors

A scalar format sends a sensor value as an integer of one to four bytes, in units of a scalar that
multiplies or divides.
-/

namespace SdkNrf.Mesh

inductive Errno
  | ENOMEM
  | ERANGE
  | EIO
  | EINVAL
  | ENOTSUP
  | ENOENT
  deriving DecidableEq, Repr

/-- `struct sensor_value`: an integer part and millionths, both of type `int32_t`. -/
structure SensorValue where
  val1 : Int
  val2 : Int
  deriving DecidableEq, Repr

/-- `struct net_buf_simple`: the data and the size of the buffer. -/
structure NetBuf where
  data : List UInt8
  size : Nat
  deriving DecidableEq, Repr

namespace NetBuf

def tailroom (buf : NetBuf) : Nat := buf.size - buf.data.length

/-- The little-endian add functions, with the value cut to `count` bytes. -/
def addLe (buf : NetBuf) (count : Nat) (value : Int) : NetBuf :=
  { buf with data := buf.data ++ leBytes count (toUnsigned (8 * count) value).toNat }

def pullLe (buf : NetBuf) (count : Nat) : Nat × NetBuf :=
  (leValue (buf.data.take count), { buf with data := buf.data.drop count })

end NetBuf

structure ScalarReprFlags where
  signed : Bool := false
  divide : Bool := false
  hasUndefined : Bool := false
  hasHigherThan : Bool := false
  hasInvalid : Bool := false
  hasMax : Bool := false
  deriving DecidableEq, Repr

structure ScalarRepr where
  flags : ScalarReprFlags
  max : Nat
  value : Int
  deriving DecidableEq, Repr

/-- `struct bt_mesh_sensor_format`, for the formats with `scalar_encode` and `scalar_decode`. -/
structure Format where
  size : Nat
  userData : ScalarRepr
  deriving DecidableEq, Repr

def scalar (mul : ℚ) (bin : Int) : ℚ :=
  mul * if 0 ≤ bin then 2 ^ bin.natAbs else 1 / 2 ^ bin.natAbs

def scalarIsDiv (s : ℚ) : Bool := -1 < s ∧ s < 1

/-- `SCALAR_REPR_RANGED`. The doubles of the source are close enough to these rationals for the
rounding to agree. -/
def scalarReprRanged (s : ℚ) (flags : ScalarReprFlags) (max : Nat) : ScalarRepr where
  flags := { flags with divide := scalarIsDiv s }
  max := max
  value := ((if scalarIsDiv s then 1 / s else s) + 1 / 2).floor

def scalarFormatMax (size : Nat) (flags : ScalarReprFlags) (s : ℚ) (max : Nat) : Format :=
  ⟨size, scalarReprRanged s { flags with hasMax := true } max⟩

def scalarFormat (size : Nat) (flags : ScalarReprFlags) (s : ℚ) : Format :=
  ⟨size, scalarReprRanged s flags 0⟩

def percentage8 : Format := scalarFormatMax 1 { hasUndefined := true } (scalar 1 (-1)) 200

def percentage16 : Format := scalarFormatMax 2 { hasUndefined := true } (scalar 1e-2 0) 200

def temp8 : Format := scalarFormat 1 { signed := true } (scalar 1 (-1))

def temp : Format := scalarFormat 2 { signed := true } (scalar 1e-2 0)

def co2Concentration : Format :=
  scalarFormat 2 { hasHigherThan := true, hasUndefined := true } (scalar 1 0)

def noise : Format := scalarFormat 1 { hasHigherThan := true, hasUndefined := true } (scalar 1 0)

def vocConcentration : Format :=
  scalarFormatMax 2 { hasHigherThan := true, hasUndefined := true } (scalar 1 0) 65533

def humidity : Format := scalarFormatMax 2 {} (scalar 1e-2 0) 10000

def timeDecihour8 : Format := scalarFormatMax 1 { hasUndefined := true } (scalar 1e-1 0) 240

def timeHour24 : Format := scalarFormat 3 { hasUndefined := true } (scalar 1e-1 0)

def timeSecond16 : Format := scalarFormat 2 { hasUndefined := true } (scalar 1 0)

def timeMillisecond24 : Format := scalarFormat 3 { hasUndefined := true } (scalar 1e-3 0)

def electricCurrent : Format := scalarFormat 2 { hasUndefined := true } (scalar 1e-2 0)

def voltage : Format := scalarFormat 2 { hasUndefined := true } (scalar 1 (-6))

def energy32 : Format :=
  scalarFormat 4 { hasInvalid := true, hasUndefined := true } (scalar 1e-3 0)

def power : Format := scalarFormat 3 { hasUndefined := true } (scalar 1e-1 0)

def energy : Format := scalarFormat 3 { hasUndefined := true } (scalar 1 0)

def chromaticDistance : Format :=
  scalarFormatMax 2 { signed := true, hasInvalid := true, hasUndefined := true } (scalar 1e-5 0)
    5000

def chromaticityCoordinate : Format := scalarFormat 2 {} (scalar 1 (-16))

def correlatedColorTemp : Format := scalarFormat 2 { hasUndefined := true } (scalar 1 0)

def illuminance : Format := scalarFormat 3 { hasUndefined := true } (scalar 1e-2 0)

def luminousEfficacy : Format := scalarFormat 2 { hasUndefined := true } (scalar 1e-1 0)

def luminousEnergy : Format := scalarFormat 3 { hasUndefined := true } (scalar 1e3 0)

def luminousExposure : Format := scalarFormat 3 { hasUndefined := true } (scalar 1e3 0)

def luminousFlux : Format := scalarFormat 2 { hasUndefined := true } (scalar 1 0)

def perceivedLightness : Format := scalarFormat 2 {} (scalar 1 0)

def count16 : Format := scalarFormat 2 { hasUndefined := true } (scalar 1 0)

def genLvl : Format := scalarFormat 2 {} (scalar 1 0)

def cosOfTheAngle : Format := scalarFormatMax 1 { signed := true } (scalar 1 0) 100

def scalarFormats : List Format :=
  [percentage8, percentage16, temp8, temp, co2Concentration, noise, vocConcentration, humidity,
    timeDecihour8, timeHour24, timeSecond16, timeMillisecond24, electricCurrent, voltage, energy32,
    power, energy, chromaticDistance, chromaticityCoordinate, correlatedColorTemp, illuminance,
    luminousEfficacy, luminousEnergy, luminousExposure, luminousFlux, perceivedLightness, count16,
    genLvl, cosOfTheAngle]

def mulScalar (val : Int) (repr : ScalarRepr) : Int :=
  if repr.flags.divide then val.tdiv repr.value else val * repr.value

def divScalar (val : Int) (repr : ScalarRepr) : Int :=
  if repr.flags.divide then val * repr.value else val.tdiv repr.value

/-- `scalar_max`, of type `uint32_t`. -/
def scalarMax (format : Format) : Int :=
  let repr := format.userData
  if repr.flags.hasMax then repr.max
  else if repr.flags.signed then toUnsigned 32 (2 ^ (8 * format.size - 1) - 1)
  else
    let maxValue := toUnsigned 32 (2 ^ (8 * format.size) - 1)
    if repr.flags.hasHigherThan || repr.flags.hasInvalid then toUnsigned 32 (maxValue - 2)
    else if repr.flags.hasUndefined then toUnsigned 32 (maxValue - 1)
    else maxValue

/-- `scalar_min`, of type `int32_t`. -/
def scalarMin (format : Format) : Int :=
  if format.userData.flags.signed then toSigned 32 (-2 ^ (8 * format.size - 1)) else 0

/-- The value that `scalar_encode` sends for `raw`. -/
def clampRaw (format : Format) (raw : Int) : Except Errno Int :=
  let flags := format.userData.flags
  if raw > scalarMax format ∨ raw < scalarMin format then
    let typeMax := toUnsigned 32 (2 ^ (8 * format.size) - 1)
    if flags.hasHigherThan || flags.hasInvalid then .ok (toUnsigned 32 (typeMax - 2))
    else if flags.hasUndefined then .ok (toUnsigned 32 (typeMax - 1))
    else .error .ERANGE
  else .ok raw

def scalarEncode (format : Format) (val : SensorValue) (buf : NetBuf) : Except Errno NetBuf := do
  let repr := format.userData
  if buf.tailroom < format.size then throw .ENOMEM
  let raw ← clampRaw format (divScalar val.val1 repr + (divScalar val.val2 repr).tdiv 1000000)
  match format.size with
  | 1 | 2 | 3 | 4 => return buf.addLe format.size raw
  | _ => throw Errno.EIO

/-- The `int32_t` that `scalar_decode` reads. In the 3-byte case the bit that is tested for the
sign lies above the 24 bits that were pulled. -/
def readRaw (format : Format) (buf : NetBuf) : Except Errno (Int × NetBuf) :=
  let flags := format.userData.flags
  let (value, rest) := buf.pullLe format.size
  match format.size with
  | 1 => .ok (if flags.signed then toSigned 8 value else value, rest)
  | 2 => .ok (if flags.signed then toSigned 16 value else value, rest)
  | 3 => .ok (if flags.signed && value.testBit 24 then toSigned 32 (value ||| 0xFF <<< 24 : Nat)
      else value, rest)
  | 4 => .ok (toSigned 32 value, rest)
  | _ => .error .ERANGE

/-- `scalar_decode`. The comparison with `max_value` is one of `uint32_t` values. -/
def scalarDecode (format : Format) (buf : NetBuf) : Except Errno (SensorValue × NetBuf) := do
  if buf.data.length < format.size then throw .ENOMEM
  let (raw, rest) ← readRaw format buf
  if raw < scalarMin format ∨ toUnsigned 32 raw > scalarMax format then throw .ERANGE
  let million := mulScalar (raw * 1000000) format.userData
  return (⟨toSigned 32 (million.tdiv 1000000), toSigned 32 (million.tmod 1000000)⟩, rest)

end SdkNrf.Mesh
