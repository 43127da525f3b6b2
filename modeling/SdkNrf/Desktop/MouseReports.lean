import SdkNrf.Desktop.HidItems
import SdkNrf.Framework.Words

/-!
# Mouse reports

The axes that motion and wheel events add to, and the reports that take from them, as in `hid_state.c`.
-/

namespace SdkNrf.Desktop.HidState

def REPORT_ID_MOUSE : UInt8 := 1

def REPORT_ID_BOOT_MOUSE : UInt8 := 10

def MOUSE_REPORT_XY_MAX : Int := 0x7ff

def MOUSE_REPORT_WHEEL_MAX : Int := 0x7f

/-- The part of `struct report_data` that mouse reports use. -/
structure ReportData where
  item : List Item
  x : Int
  y : Int
  wheel : Int
  updateNeeded : Bool
  deriving DecidableEq, Repr

/-- `MAX(MIN(v, hi), lo)`. -/
def clamp (lo hi v : Int) : Int := max (min v hi) lo

/-- `sys_put_le16`. -/
def putLe16 (v : Int) : UInt8 × UInt8 :=
  (UInt8.ofNat (toUnsigned 16 v).toNat, UInt8.ofNat ((toUnsigned 16 v).toNat / 256))

def int8Byte (v : Int) : UInt8 := UInt8.ofNat (toUnsigned 8 v).toNat

def buttonBm (item : List Item) : UInt8 :=
  item.foldl (fun bm it =>
    if it.usageId = 0 then bm else bm ||| UInt8.ofNat (2 ^ (it.usageId.toNat - 1))) 0

inductive Report
  | mouse (data : List UInt8)
  | bootMouse (data : List UInt8)
  deriving DecidableEq, Repr

def encodeMouse (buttons : UInt8) (wheel dx dy : Int) : List UInt8 :=
  let xBuff := putLe16 dx
  let yBuff := putLe16 dy
  [REPORT_ID_MOUSE, buttons, int8Byte wheel, xBuff.1, (yBuff.1 <<< 4) ||| (xBuff.2 &&& 0x0f),
    (yBuff.2 <<< 4) ||| (yBuff.1 >>> 4)]

def sendReportMouse (rd : ReportData) : ReportData × Report :=
  let dx := toSigned 16 (clamp (-MOUSE_REPORT_XY_MAX) MOUSE_REPORT_XY_MAX rd.x)
  let dy := toSigned 16 (clamp (-MOUSE_REPORT_XY_MAX) MOUSE_REPORT_XY_MAX (-rd.y))
  let x := toSigned 16 (rd.x - dx)
  let y := toSigned 16 (rd.y + dy)
  let wheel := toSigned 16
    (clamp (-MOUSE_REPORT_WHEEL_MAX) MOUSE_REPORT_WHEEL_MAX (rd.wheel.tdiv 2))
  let rest := toSigned 16 (rd.wheel - wheel * 2)
  ({ rd with
      x := x
      y := y
      wheel := rest
      updateNeeded := decide (x ≠ 0 ∨ y ≠ 0 ∨ rest < -1 ∨ 1 < rest) },
    .mouse (encodeMouse (buttonBm rd.item) wheel dx dy))

def sendReportBootMouse (rd : ReportData) : ReportData × Report :=
  let dx := toSigned 8 (clamp (-128) 127 rd.x)
  let dy := toSigned 8 (clamp (-128) 127 (-rd.y))
  let x := toSigned 16 (rd.x - dx)
  let y := toSigned 16 (rd.y + dy)
  ({ rd with x := x, y := y, wheel := 0, updateNeeded := decide (x ≠ 0 ∨ y ≠ 0) },
    .bootMouse [REPORT_ID_BOOT_MOUSE, buttonBm rd.item, int8Byte dx, int8Byte dy])

inductive MouseEvent
  | motion (dx dy : Int)
  | wheel (steps : Int)
  | items (item : List Item)
  | sendMouse
  | sendBootMouse
  deriving DecidableEq, Repr

/-- The handlers of motion and wheel events, a change of the pressed buttons, and reports. -/
def ReportData.step (rd : ReportData) : MouseEvent → ReportData × List Report
  | .motion dx dy => ({ rd with
      x := toSigned 16 (rd.x + dx)
      y := toSigned 16 (rd.y + dy)
      updateNeeded := true }, [])
  | .wheel steps => ({ rd with wheel := toSigned 16 (rd.wheel + steps), updateNeeded := true }, [])
  | .items item => ({ rd with item := item, updateNeeded := true }, [])
  | .sendMouse => ((sendReportMouse rd).1, [(sendReportMouse rd).2])
  | .sendBootMouse => ((sendReportBootMouse rd).1, [(sendReportBootMouse rd).2])

def ReportData.run : ReportData → List MouseEvent → ReportData × List Report
  | rd, [] => (rd, [])
  | rd, event :: events =>
    let run := (rd.step event).1.run events
    (run.1, (rd.step event).2 ++ run.2)

def connectedReportData (item : List Item) (updateNeeded : Bool) : ReportData :=
  ⟨item, 0, 0, 0, updateNeeded⟩

structure Movement where
  x : Int
  y : Int
  wheel : Int
  deriving DecidableEq, Repr

def Report.decode : Report → Option Movement
  | .mouse [_, _, wheel, b₃, b₄, b₅] => some
      ⟨toSigned 12 (b₃.toNat + 256 * (b₄.toNat % 16) : Nat),
        toSigned 12 (b₄.toNat / 16 + 16 * b₅.toNat : Nat), toSigned 8 wheel.toNat⟩
  | .bootMouse [_, _, dx, dy] => some ⟨toSigned 8 dx.toNat, toSigned 8 dy.toNat, 0⟩
  | _ => none

def Report.InRange (r : Report) : Prop :=
  match r, r.decode with
  | .mouse _, some m => |m.x| ≤ MOUSE_REPORT_XY_MAX ∧ |m.y| ≤ MOUSE_REPORT_XY_MAX ∧
      |m.wheel| ≤ MOUSE_REPORT_WHEEL_MAX
  | .bootMouse _, some m => (-128 ≤ m.x ∧ m.x ≤ 127) ∧ -128 ≤ m.y ∧ m.y ≤ 127
  | _, none => False

def reported (field : Movement → Int) (reports : List Report) : Int :=
  (reports.map fun r => (r.decode.map field).getD 0).sum

def MouseEvent.dx : MouseEvent → Int
  | .motion dx _ => dx
  | _ => 0

def MouseEvent.dy : MouseEvent → Int
  | .motion _ dy => dy
  | _ => 0

def MouseEvent.steps : MouseEvent → Int
  | .wheel steps => steps
  | _ => 0

def NoOverflow : ReportData → List MouseEvent → Prop
  | _, [] => True
  | rd, event :: events =>
    ((-2 ^ 15 ≤ rd.x + event.dx ∧ rd.x + event.dx < 2 ^ 15) ∧
      (-2 ^ 15 ≤ rd.y + event.dy ∧ rd.y + event.dy < 2 ^ 15) ∧
      -2 ^ 15 ≤ rd.wheel + event.steps ∧ rd.wheel + event.steps < 2 ^ 15) ∧
    NoOverflow (rd.step event).1 events

def discardedWheel : ReportData → List MouseEvent → Int
  | _, [] => 0
  | rd, event :: events =>
    (if event = .sendBootMouse then rd.wheel else 0) + discardedWheel (rd.step event).1 events

/-- The reports of a run and what is left of the axes add up to the events, and to `discarded` wheel steps;
an update is not needed only when nothing but an odd wheel step is left. -/
structure Balanced (rd : ReportData) (events : List MouseEvent) (discarded : Int) : Prop where
  inRange : ∀ r ∈ (rd.run events).2, r.InRange
  x : reported Movement.x (rd.run events).2 + (rd.run events).1.x = (events.map MouseEvent.dx).sum
  y : -reported Movement.y (rd.run events).2 + (rd.run events).1.y = (events.map MouseEvent.dy).sum
  wheel : 2 * reported Movement.wheel (rd.run events).2 + discarded + (rd.run events).1.wheel =
    (events.map MouseEvent.steps).sum
  updateNeeded : (rd.run events).1.updateNeeded = false →
    (rd.run events).1.x = 0 ∧ (rd.run events).1.y = 0 ∧ |(rd.run events).1.wheel| ≤ 1

theorem toNat_toUnsigned (w : Nat) (v : Int) : ((toUnsigned w v).toNat : Int) = v % 2 ^ w :=
  Int.toNat_of_nonneg (toUnsigned_nonneg w v)

theorem nibbles_toNat {hi lo : Nat} (h : lo < 16) : (hi <<< 4 % 2 ^ 8 ||| lo) = 16 * (hi % 16) + lo := by
  have hshift : hi <<< 4 % 2 ^ 8 = (hi % 16) <<< 4 := by
    rw [Nat.shiftLeft_eq, Nat.shiftLeft_eq]
    omega
  rw [hshift, ← Nat.shiftLeft_add_eq_or_of_lt h, Nat.shiftLeft_eq, Nat.mul_comm]

theorem highNibble (hi lo : UInt8) :
    ((hi <<< 4) ||| (lo &&& 0x0f)).toNat = 16 * (hi.toNat % 16) + lo.toNat % 16 := by
  have hlow : lo.toNat &&& 15 = lo.toNat % 16 := Nat.and_two_pow_sub_one_eq_mod lo.toNat 4
  rw [UInt8.toNat_or, UInt8.toNat_shiftLeft, UInt8.toNat_and]
  change hi.toNat <<< 4 % 2 ^ 8 ||| (lo.toNat &&& 15) = _
  rw [hlow, nibbles_toNat (Nat.mod_lt _ (by decide))]

theorem lowNibble (hi lo : UInt8) :
    ((hi <<< 4) ||| (lo >>> 4)).toNat = 16 * (hi.toNat % 16) + lo.toNat / 16 := by
  have hlt := lo.toNat_lt
  rw [UInt8.toNat_or, UInt8.toNat_shiftLeft, UInt8.toNat_shiftRight]
  change hi.toNat <<< 4 % 2 ^ 8 ||| (lo.toNat >>> 4) = _
  rw [Nat.shiftRight_eq_div_pow, nibbles_toNat (by omega)]

theorem toSigned_int8Byte {v : Int} (hge : -128 ≤ v) (hle : v ≤ 127) :
    toSigned 8 (int8Byte v).toNat = v := by
  have hnat := toNat_toUnsigned 8 v
  have hmod : (((int8Byte v).toNat : Nat) : Int) = toUnsigned 8 v := by
    rw [int8Byte, UInt8.toNat_ofNat']
    push_cast
    rw [hnat, toUnsigned]
    exact Int.emod_emod_of_dvd v (dvd_refl _)
  rw [hmod, toSigned_toUnsigned]
  exact toSigned_of_mem (w := 7) (by omega) (by omega)

theorem decode_encodeMouse (buttons : UInt8) {wheel dx dy : Int} (hwheel : |wheel| ≤ 127)
    (hdx : |dx| ≤ 2047) (hdy : |dy| ≤ 2047) :
    (Report.mouse (encodeMouse buttons wheel dx dy)).decode = some ⟨dx, dy, wheel⟩ := by
  rw [abs_le] at hwheel hdx hdy
  have hx := toNat_toUnsigned 16 dx
  have hy := toNat_toUnsigned 16 dy
  have htwelve {n : Nat} {v : Int} (hn : (n : Int) = v % 2 ^ 12) (hge : -2047 ≤ v) (hle : v ≤ 2047) :
      toSigned 12 n = v := by
    rw [hn]
    change toSigned 12 (toUnsigned 12 v) = v
    rw [toSigned_toUnsigned]
    exact toSigned_of_mem (w := 11) (by omega) (by omega)
  simp only [encodeMouse, Report.decode, Option.some.injEq, Movement.mk.injEq, highNibble, lowNibble,
    putLe16, UInt8.toNat_ofNat']
  generalize (toUnsigned 16 dx).toNat = n at *
  generalize (toUnsigned 16 dy).toNat = m at *
  refine ⟨htwelve ?_ hdx.1 hdx.2, htwelve ?_ hdy.1 hdy.2, toSigned_int8Byte ?_ ?_⟩
  · omega
  · omega
  · omega
  · omega

theorem clamp_bounds {lo hi : Int} (h : lo ≤ hi) (v : Int) : lo ≤ clamp lo hi v ∧ clamp lo hi v ≤ hi := by
  unfold clamp
  omega

structure ReportData.Small (rd : ReportData) : Prop where
  x : -2 ^ 15 ≤ rd.x ∧ rd.x < 2 ^ 15
  y : -2 ^ 15 ≤ rd.y ∧ rd.y < 2 ^ 15
  wheel : -2 ^ 15 ≤ rd.wheel ∧ rd.wheel < 2 ^ 15
  updateNeeded : rd.updateNeeded = false → rd.x = 0 ∧ rd.y = 0 ∧ |rd.wheel| ≤ 1

theorem zero_small : -2 ^ 15 ≤ (0 : Int) ∧ (0 : Int) < 2 ^ 15 := by decide

theorem toSigned_small {v : Int} (hge : -2 ^ 15 ≤ v) (hlt : v < 2 ^ 15) : toSigned 16 v = v :=
  toSigned_of_mem (w := 15) hge hlt

/-- A report takes what it says from the axes, and `discarded` wheel steps. -/
structure Takes (rd rd' : ReportData) (r : Report) (discarded : Int) : Prop where
  small : rd'.Small
  inRange : r.InRange
  x : reported Movement.x [r] + rd'.x = rd.x
  y : -reported Movement.y [r] + rd'.y = rd.y
  wheel : 2 * reported Movement.wheel [r] + discarded + rd'.wheel = rd.wheel

theorem half_bounds (v : Int) : 0 ≤ v ∧ 0 ≤ v.tdiv 2 ∧ 2 * v.tdiv 2 ≤ v ∨
    v < 0 ∧ v.tdiv 2 ≤ 0 ∧ v ≤ 2 * v.tdiv 2 := by
  rcases Int.lt_or_le v 0 with hneg | hpos
  · have hhalf : v.tdiv 2 = -((-v) / 2) := by
      rw [← Int.tdiv_eq_ediv_of_nonneg (by omega), Int.neg_tdiv, Int.neg_neg]
    omega
  · rw [Int.tdiv_eq_ediv_of_nonneg hpos]
    omega

theorem reported_singleton {r : Report} {m : Movement} (h : r.decode = some m)
    (field : Movement → Int) : reported field [r] = field m := by
  simp [reported, h]

theorem sendReportMouse_takes {rd : ReportData} (h : rd.Small) :
    Takes rd (sendReportMouse rd).1 (sendReportMouse rd).2 0 := by
  obtain ⟨hx, hy, hwheel, -⟩ := h
  have hhalf := half_bounds rd.wheel
  have hdx := clamp_bounds (by decide : (-2047 : Int) ≤ 2047) rd.x
  have hdy := clamp_bounds (by decide : (-2047 : Int) ≤ 2047) (-rd.y)
  have hdw := clamp_bounds (by decide : (-127 : Int) ≤ 127) (rd.wheel.tdiv 2)
  have hxrest : -2 ^ 15 ≤ rd.x - clamp (-2047) 2047 rd.x ∧
      rd.x - clamp (-2047) 2047 rd.x < 2 ^ 15 := by
    unfold clamp
    omega
  have hyrest : -2 ^ 15 ≤ rd.y + clamp (-2047) 2047 (-rd.y) ∧
      rd.y + clamp (-2047) 2047 (-rd.y) < 2 ^ 15 := by
    unfold clamp
    omega
  have hwrest : -2 ^ 15 ≤ rd.wheel - clamp (-127) 127 (rd.wheel.tdiv 2) * 2 ∧
      rd.wheel - clamp (-127) 127 (rd.wheel.tdiv 2) * 2 < 2 ^ 15 := by
    unfold clamp
    omega
  have hsend : sendReportMouse rd =
      ({ rd with
          x := rd.x - clamp (-2047) 2047 rd.x
          y := rd.y + clamp (-2047) 2047 (-rd.y)
          wheel := rd.wheel - clamp (-127) 127 (rd.wheel.tdiv 2) * 2
          updateNeeded := decide (rd.x - clamp (-2047) 2047 rd.x ≠ 0 ∨
            rd.y + clamp (-2047) 2047 (-rd.y) ≠ 0 ∨
            rd.wheel - clamp (-127) 127 (rd.wheel.tdiv 2) * 2 < -1 ∨
            1 < rd.wheel - clamp (-127) 127 (rd.wheel.tdiv 2) * 2) },
        .mouse (encodeMouse (buttonBm rd.item) (clamp (-127) 127 (rd.wheel.tdiv 2))
          (clamp (-2047) 2047 rd.x) (clamp (-2047) 2047 (-rd.y)))) := by
    have hx := toSigned_small (v := clamp (-2047) 2047 rd.x) (by omega) (by omega)
    have hy := toSigned_small (v := clamp (-2047) 2047 (-rd.y)) (by omega) (by omega)
    have hw := toSigned_small (v := clamp (-127) 127 (rd.wheel.tdiv 2)) (by omega) (by omega)
    simp only [sendReportMouse, MOUSE_REPORT_XY_MAX, MOUSE_REPORT_WHEEL_MAX, hx, hy, hw,
      toSigned_small hxrest.1 hxrest.2, toSigned_small hyrest.1 hyrest.2,
      toSigned_small hwrest.1 hwrest.2]
  rw [hsend]
  generalize clamp (-2047) 2047 rd.x = dx at *
  generalize clamp (-2047) 2047 (-rd.y) = dy at *
  generalize clamp (-127) 127 (rd.wheel.tdiv 2) = w at *
  have hdecode := decode_encodeMouse (buttonBm rd.item) (abs_le.mpr hdw) (abs_le.mpr hdx)
    (abs_le.mpr hdy)
  constructor
  · refine ⟨hxrest, hyrest, hwrest, fun hno => ?_⟩
    have hrest := of_decide_eq_false hno
    simp only
    rw [abs_le]
    omega
  · simp only [Report.InRange, hdecode]
    exact ⟨abs_le.mpr hdx, abs_le.mpr hdy, abs_le.mpr hdw⟩
  · rw [reported_singleton hdecode]
    dsimp only
    omega
  · rw [reported_singleton hdecode]
    dsimp only
    omega
  · rw [reported_singleton hdecode]
    dsimp only
    omega

theorem sendReportBootMouse_takes {rd : ReportData} (h : rd.Small) :
    Takes rd (sendReportBootMouse rd).1 (sendReportBootMouse rd).2 rd.wheel := by
  obtain ⟨hx, hy, -, -⟩ := h
  have hdx := clamp_bounds (by decide : (-128 : Int) ≤ 127) rd.x
  have hdy := clamp_bounds (by decide : (-128 : Int) ≤ 127) (-rd.y)
  have hxrest : -2 ^ 15 ≤ rd.x - clamp (-128) 127 rd.x ∧ rd.x - clamp (-128) 127 rd.x < 2 ^ 15 := by
    unfold clamp
    omega
  have hyrest : -2 ^ 15 ≤ rd.y + clamp (-128) 127 (-rd.y) ∧
      rd.y + clamp (-128) 127 (-rd.y) < 2 ^ 15 := by
    unfold clamp
    omega
  have hsend : sendReportBootMouse rd =
      ({ rd with
          x := rd.x - clamp (-128) 127 rd.x
          y := rd.y + clamp (-128) 127 (-rd.y)
          wheel := 0
          updateNeeded := decide (rd.x - clamp (-128) 127 rd.x ≠ 0 ∨
            rd.y + clamp (-128) 127 (-rd.y) ≠ 0) },
        .bootMouse [REPORT_ID_BOOT_MOUSE, buttonBm rd.item, int8Byte (clamp (-128) 127 rd.x),
          int8Byte (clamp (-128) 127 (-rd.y))]) := by
    have hx : toSigned 8 (clamp (-128) 127 rd.x) = clamp (-128) 127 rd.x :=
      toSigned_of_mem (w := 7) hdx.1 (by omega)
    have hy : toSigned 8 (clamp (-128) 127 (-rd.y)) = clamp (-128) 127 (-rd.y) :=
      toSigned_of_mem (w := 7) hdy.1 (by omega)
    simp only [sendReportBootMouse, hx, hy, toSigned_small hxrest.1 hxrest.2,
      toSigned_small hyrest.1 hyrest.2]
  rw [hsend]
  generalize clamp (-128) 127 rd.x = dx at *
  generalize clamp (-128) 127 (-rd.y) = dy at *
  have hdecode : (Report.bootMouse [REPORT_ID_BOOT_MOUSE, buttonBm rd.item, int8Byte dx,
      int8Byte dy]).decode = some ⟨dx, dy, 0⟩ := by
    rw [Report.decode, toSigned_int8Byte hdx.1 hdx.2, toSigned_int8Byte hdy.1 hdy.2]
  constructor
  · refine ⟨hxrest, hyrest, zero_small, fun hno => ?_⟩
    have hrest := of_decide_eq_false hno
    simp only [abs_zero]
    omega
  · simp only [Report.InRange, hdecode]
    exact ⟨hdx, hdy⟩
  · rw [reported_singleton hdecode]
    dsimp only
    omega
  · rw [reported_singleton hdecode]
    dsimp only
    omega
  · rw [reported_singleton hdecode]
    dsimp only
    omega

theorem reported_append (field : Movement → Int) (reports more : List Report) :
    reported field (reports ++ more) = reported field reports + reported field more := by
  simp [reported]

structure StepBalance (rd rd' : ReportData) (event : MouseEvent) (reports : List Report)
    (discarded : Int) : Prop where
  small : rd'.Small
  inRange : ∀ r ∈ reports, r.InRange
  x : reported Movement.x reports + rd'.x = rd.x + event.dx
  y : -reported Movement.y reports + rd'.y = rd.y + event.dy
  wheel : 2 * reported Movement.wheel reports + discarded + rd'.wheel = rd.wheel + event.steps

theorem Takes.stepBalance {rd rd' : ReportData} {r : Report} {discarded : Int}
    (h : Takes rd rd' r discarded) {event : MouseEvent}
    (hevent : event.dx = 0 ∧ event.dy = 0 ∧ event.steps = 0) :
    StepBalance rd rd' event [r] discarded := by
  obtain ⟨hdx, hdy, hsteps⟩ := hevent
  refine ⟨h.small, fun s hs => ?_, ?_, ?_, ?_⟩
  · rw [List.mem_singleton.mp hs]
    exact h.inRange
  · rw [hdx, h.x, Int.add_zero]
  · rw [hdy, h.y, Int.add_zero]
  · rw [hsteps, h.wheel, Int.add_zero]

theorem step_balance {rd : ReportData} (h : rd.Small) {event : MouseEvent}
    (hx : -2 ^ 15 ≤ rd.x + event.dx ∧ rd.x + event.dx < 2 ^ 15)
    (hy : -2 ^ 15 ≤ rd.y + event.dy ∧ rd.y + event.dy < 2 ^ 15)
    (hwheel : -2 ^ 15 ≤ rd.wheel + event.steps ∧ rd.wheel + event.steps < 2 ^ 15) :
    StepBalance rd (rd.step event).1 event (rd.step event).2
      (if event = .sendBootMouse then rd.wheel else 0) := by
  cases event with
  | motion dx dy =>
    simp only [MouseEvent.dx, MouseEvent.dy] at hx hy
    have hxsum := toSigned_small hx.1 hx.2
    have hysum := toSigned_small hy.1 hy.2
    refine ⟨⟨?_, ?_, h.wheel, ?_⟩, ?_, ?_, ?_, ?_⟩
    · simpa only [ReportData.step, hxsum] using hx
    · simpa only [ReportData.step, hysum] using hy
    · simp [ReportData.step]
    · simp [ReportData.step]
    · simp [ReportData.step, reported, hxsum, MouseEvent.dx]
    · simp [ReportData.step, reported, hysum, MouseEvent.dy]
    · simp [ReportData.step, reported, MouseEvent.steps]
  | wheel steps =>
    simp only [MouseEvent.steps] at hwheel
    have hsum := toSigned_small hwheel.1 hwheel.2
    refine ⟨⟨h.x, h.y, ?_, ?_⟩, ?_, ?_, ?_, ?_⟩
    · simpa only [ReportData.step, hsum] using hwheel
    · simp [ReportData.step]
    · simp [ReportData.step]
    · simp [ReportData.step, reported, MouseEvent.dx]
    · simp [ReportData.step, reported, MouseEvent.dy]
    · simp [ReportData.step, reported, hsum, MouseEvent.steps]
  | items item =>
    refine ⟨⟨h.x, h.y, h.wheel, ?_⟩, ?_, ?_, ?_, ?_⟩
    · simp [ReportData.step]
    · simp [ReportData.step]
    · simp [ReportData.step, reported, MouseEvent.dx]
    · simp [ReportData.step, reported, MouseEvent.dy]
    · simp [ReportData.step, reported, MouseEvent.steps]
  | sendMouse => exact (sendReportMouse_takes h).stepBalance ⟨rfl, rfl, rfl⟩
  | sendBootMouse => exact (sendReportBootMouse_takes h).stepBalance ⟨rfl, rfl, rfl⟩

theorem run_balance {rd : ReportData} (h : rd.Small) {events : List MouseEvent}
    (hfits : NoOverflow rd events) :
    (rd.run events).1.Small ∧ (∀ r ∈ (rd.run events).2, r.InRange) ∧
      reported Movement.x (rd.run events).2 + (rd.run events).1.x =
        rd.x + (events.map MouseEvent.dx).sum ∧
      -reported Movement.y (rd.run events).2 + (rd.run events).1.y =
        rd.y + (events.map MouseEvent.dy).sum ∧
      2 * reported Movement.wheel (rd.run events).2 + discardedWheel rd events +
        (rd.run events).1.wheel = rd.wheel + (events.map MouseEvent.steps).sum := by
  induction events generalizing rd with
  | nil => exact ⟨h, by simp [ReportData.run], by simp [ReportData.run, reported],
      by simp [ReportData.run, reported], by simp [ReportData.run, reported, discardedWheel]⟩
  | cons event events ih =>
    obtain ⟨⟨hx, hy, hwheel⟩, hlater⟩ := hfits
    have hstep := step_balance h hx hy hwheel
    obtain ⟨hsmall, hrange, hxrun, hyrun, hwheelrun⟩ := ih hstep.small hlater
    have hxstep := hstep.x
    have hystep := hstep.y
    have hwheelstep := hstep.wheel
    simp only [ReportData.run, discardedWheel, reported_append, List.map_cons, List.sum_cons]
    refine ⟨hsmall, fun r hr => ?_, by omega, by omega, by omega⟩
    rcases List.mem_append.mp hr with hnow | hlater
    · exact hstep.inRange r hnow
    · exact hrange r hlater

/-- Motion is conserved by every run without an overflow, and so are the wheel steps that no boot report
has cleared. -/
theorem run_balanced (item : List Item) (updateNeeded : Bool) {events : List MouseEvent}
    (hfits : NoOverflow (connectedReportData item updateNeeded) events) :
    Balanced (connectedReportData item updateNeeded) events
      (discardedWheel (connectedReportData item updateNeeded) events) := by
  have hsmall : (connectedReportData item updateNeeded).Small :=
    ⟨zero_small, zero_small, zero_small, fun _ => ⟨rfl, rfl, abs_zero.trans_le zero_le_one⟩⟩
  obtain ⟨hfinal, hrange, hx, hy, hwheel⟩ := run_balance hsmall hfits
  refine ⟨hrange, ?_, ?_, ?_, hfinal.updateNeeded⟩
  · rw [hx]
    exact Int.zero_add _
  · rw [hy]
    exact Int.zero_add _
  · rw [hwheel]
    exact Int.zero_add _

theorem run_balanced_motion :
    Balanced (connectedReportData [] false) [.motion 3000 (-5), .sendMouse]
      (discardedWheel (connectedReportData [] false) [.motion 3000 (-5), .sendMouse]) :=
  run_balanced [] false ⟨by decide, by decide, trivial⟩

/-- The wheel steps in front of a boot report are lost. -/
theorem bootReport_discards :
    ¬ Balanced (connectedReportData [] false) [.wheel 2, .sendBootMouse] 0 := by
  intro h
  have hwheel := h.wheel
  revert hwheel
  decide

end SdkNrf.Desktop.HidState
