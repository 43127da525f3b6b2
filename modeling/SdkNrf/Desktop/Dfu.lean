import SdkNrf.Framework.Bytes
import SdkNrf.Framework.Reachable
import SdkNrf.Framework.Words

/-!
# The DFU module of nRF Desktop

`dfu.c` and `dfu_lock.c`: image data is written chunk by chunk into the secondary slot, which is
erased page by page in the background.
-/

namespace SdkNrf.Desktop

def flashPageSize : Nat := 4096

inductive Module
  | dfu
  | smp
  deriving DecidableEq, Repr

structure Chunk where
  imgLength : Nat
  imgCsum : Nat
  data : List UInt8
  deriving DecidableEq

structure Upgrade where
  imgLength : Nat
  image : List UInt8
  deriving DecidableEq

/-- The variables of the module, the slot, the lock, and what has happened: the chunks that were
written for the image, the upgrades that were requested, and whether `dfu_unlock` was called without
holding the lock. -/
structure Dfu where
  flash : List UInt8
  dfuLocked : Option Module
  flashArea : Bool
  curOffset : Nat
  imgCsum : Nat
  imgLength : Nat
  deviceInUse : Bool
  isFlashAreaClean : Bool
  eraseOffset : Nat
  dfuTimeout : Bool
  backgroundErase : Bool
  chunks : List Chunk
  upgrades : List Upgrade
  badUnlock : Bool
  deriving DecidableEq

namespace Dfu

/-- `dfu_lock`: the lock is taken only when it is free. -/
def dfuLock (m : Module) (locked : Option Module) : Option Module × Bool :=
  if locked = none then (some m, true) else (locked, false)

/-- `dfu_unlock` by this module. -/
def dfuUnlock (s : Dfu) : Dfu :=
  if s.dfuLocked = some .dfu then { s with dfuLocked := none } else { s with badUnlock := true }

def program (flash : List UInt8) (off : Nat) (data : List UInt8) : List UInt8 :=
  Memory.write flash off (List.zipWith (· &&& ·) (Memory.slice flash off data.length) data)

/-- `flash_area_write`: the slot, and whether it succeeded. A write outside of the slot is refused;
other failures come after some bytes. -/
def flashAreaWrite (flash : List UInt8) (off : Nat) (data : List UInt8) (fault : Option Nat) :
    List UInt8 × Bool :=
  if flash.length < off + data.length then (flash, false)
  else
    match fault with
    | none => (program flash off data, true)
    | some k => (program flash off (data.take k), false)

def isPageClean (flash : List UInt8) (off : Nat) : Bool :=
  (Memory.slice flash off flashPageSize).all (· = 0xFF)

/-- How a background erase goes: whether the slot is opened, whether the page can be read, and what
is in the page when it cannot be erased. -/
structure EraseStep where
  opens : Bool
  reads : Bool
  fault : Option (List UInt8)

/-- The page at `off` with other contents. -/
def setPage (flash : List UInt8) (off : Nat) (page : List UInt8) : List UInt8 :=
  Memory.write flash off (Memory.slice (page ++ List.replicate flashPageSize 0) 0 flashPageSize)

def dfuTimeoutHandler (s : Dfu) : Dfu :=
  if s.flashArea then { s.dfuUnlock with flashArea := false } else s

/-- The end of `background_erase_handler`, when a page is clean. -/
def pageErased (s : Dfu) : Dfu :=
  let s := { s with eraseOffset := s.eraseOffset + flashPageSize }
  if s.eraseOffset < s.flash.length then { s with backgroundErase := true }
  else { s.dfuUnlock with isFlashAreaClean := true, eraseOffset := 0, flashArea := false }

def backgroundEraseHandler (s : Dfu) (o : EraseStep) : Dfu :=
  if s.deviceInUse then { s with deviceInUse := false, backgroundErase := true }
  else if !s.flashArea && !o.opens then s
  else
    let s := { s with flashArea := true }
    if o.reads && isPageClean s.flash s.eraseOffset then s.pageErased
    else
      match o.fault with
      | none => { s with
          flash := setPage s.flash s.eraseOffset (List.replicate flashPageSize 0xFF) }.pageErased
      | some page => { s with flash := setPage s.flash s.eraseOffset page, flashArea := false }

/-- The code at `dfu_finish`. -/
def dfuFinish (s : Dfu) : Dfu := { s with flashArea := false, dfuTimeout := false }

def handleDfuData (s : Dfu) (data : List UInt8) (fault : Option Nat) : Dfu :=
  if !s.isFlashAreaClean then s
  else if !s.flashArea then s
  else if data.length = 0 then s.dfuFinish
  else
    let written := flashAreaWrite s.flash s.curOffset data fault
    if !written.2 then { s with flash := written.1 }.dfuFinish
    else
      let chunk : Chunk := ⟨s.imgLength, s.imgCsum, data⟩
      let s := { s with
        flash := written.1
        curOffset := s.curOffset + data.length
        chunks := s.chunks ++ [chunk] }
      if s.imgLength = s.curOffset then
        let upgrade : Upgrade := ⟨s.imgLength, s.flash.take s.curOffset⟩
        { s with upgrades := s.upgrades ++ [upgrade] }.dfuFinish
      else { s with dfuTimeout := true }

/-- The end of `handle_dfu_start`. -/
def openSlot (s : Dfu) (opens : Bool) : Dfu :=
  if !opens then s.dfuUnlock
  else if s.flash.length < s.imgLength then s.dfuUnlock
  else { s with flashArea := true, dfuTimeout := true }

/-- The 32-bit number at `pos`. -/
def le32At (data : List UInt8) (pos : Nat) : Nat := leValue (Memory.slice data pos 4)

def handleDfuStart (s : Dfu) (data : List UInt8) (opens : Bool) : Dfu :=
  if data.length < 12 then s
  else if !s.isFlashAreaClean then s
  else if s.flashArea then s
  else if !(dfuLock .dfu s.dfuLocked).2 then s
  else
    let s := { s with dfuLocked := (dfuLock .dfu s.dfuLocked).1 }
    let length := le32At data 0
    let csum := le32At data 4
    let offset := le32At data 8
    if offset ≠ 0 then
      if offset ≠ s.curOffset ∨ length ≠ s.imgLength ∨ csum ≠ s.imgCsum then s.dfuUnlock
      else s.openSlot opens
    else if s.curOffset ≠ 0 then
      { s with
        backgroundErase := true
        isFlashAreaClean := false
        curOffset := 0
        imgLength := 0
        imgCsum := 0
        chunks := [] }
    else { s with imgLength := length, imgCsum := csum }.openSlot opens

/-- What can happen: requests over the configuration channel, the works, user activity, and an
upload that another module has started. -/
inductive Event
  | start (data : List UInt8) (opens : Bool)
  | data (data : List UInt8) (fault : Option Nat)
  | timeout
  | erase (o : EraseStep)
  | inUse
  | smpLock

def step (s : Dfu) : Event → Dfu
  | .start data opens => s.handleDfuStart data opens
  | .data data fault => s.handleDfuData data fault
  | .timeout => if s.dfuTimeout then { s with dfuTimeout := false }.dfuTimeoutHandler else s
  | .erase o =>
    if s.backgroundErase then { s with backgroundErase := false }.backgroundEraseHandler o else s
  | .inUse => { s with deviceInUse := true }
  | .smpLock => { s with dfuLocked := (dfuLock .smp s.dfuLocked).1 }

/-- The state when the module is ready: it has the lock, and the slot is to be erased. -/
def ready (flash : List UInt8) : Dfu where
  flash := flash
  dfuLocked := some .dfu
  flashArea := false
  curOffset := 0
  imgCsum := 0
  imgLength := 0
  deviceInUse := false
  isFlashAreaClean := false
  eraseOffset := 0
  dfuTimeout := false
  backgroundErase := true
  chunks := []
  upgrades := []
  badUnlock := false

end Dfu

end SdkNrf.Desktop
