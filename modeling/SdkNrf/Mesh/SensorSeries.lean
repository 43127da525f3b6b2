import SdkNrf.Mesh.Sensor

/-!
# Sensor series messages between server and client

`handle_series_get` of `sensor_srv.c` sends the columns whose start lies in the requested range, each as its
start, its width and its channel values.
-/

namespace SdkNrf.Mesh

/-- `struct bt_mesh_sensor_column`. -/
structure SensorColumn where
  start : SensorValue
  stop : SensorValue
  deriving DecidableEq, Repr

/-- `bt_mesh_sensor_format_time_decihour_8`. -/
def timeDecihourFormat : SensorFormat := .ofScalar timeDecihour8 (by decide) (by decide)

def sensorColumnFormatGet (type : SensorType) : SensorFormat :=
  if type.flagSeries ∧ type.channels.length ≥ 2 then type.channels.getD 1 timeDecihourFormat
  else timeDecihourFormat

def sensorValueInColumn (value : SensorValue) (col : SensorColumn) : Bool :=
  (value.val1 > col.start.val1 ∨ (value.val1 = col.start.val1 ∧ value.val2 ≥ col.start.val2))
    ∧ (value.val1 < col.stop.val1 ∨ (value.val1 = col.stop.val1 ∧ value.val2 ≤ col.stop.val2))

/-- The value of millionths in an `int` that is converted to `uint64_t` and split. -/
def splitMill (mill : Int) : SensorValue :=
  let mill := toUnsigned 64 (toSigned 32 mill)
  ⟨toSigned 32 (mill / 1000000), toSigned 32 (mill % 1000000)⟩

/-- The width that `sensor_column_encode` sends. -/
def columnWidth (col : SensorColumn) : SensorValue :=
  splitMill ((col.stop.val1 - col.start.val1) * 1000000 + (col.stop.val2 - col.start.val2))

/-- `sensor_column_encode`, with what the series getter gives for the column. -/
def sensorColumnEncode (buf : NetBuf) (type : SensorType) (col : SensorColumn)
    (reading : Except Errno (List SensorValue)) : Except Errno NetBuf := do
  let colFormat := sensorColumnFormatGet type
  let buf ← colFormat.encode col.start buf
  let buf ← colFormat.encode (columnWidth col) buf
  let values ← reading
  let (buf, result) := sensorValueEncode type.channels values buf
  result
  return buf

/-- A sensor with its series: the columns, each with what the getter gives for it, if there are
columns and a getter. -/
structure SeriesSensor where
  type : SensorType
  columns : Option (List (SensorColumn × Except Errno (List SensorValue)))
  hasGet : Bool

/-- The range of a series request; `none` for a request without one. -/
def decodeRange (format : SensorFormat) (buf : NetBuf) : Except Errno (Option SensorColumn) := do
  if buf.data.length = format.size * 2 then
    let (buf, start) := format.decode buf
    let (_, stop) := format.decode buf
    return some ⟨← start, ← stop⟩
  else if buf.data.length ≠ 0 then throw .EINVAL
  else return none

/-- The loop of `handle_series_get` over the columns. -/
def encodeColumns (type : SensorType) (range : Option SensorColumn) :
    List (SensorColumn × Except Errno (List SensorValue)) → NetBuf → Except Errno NetBuf
  | [], buf => return buf
  | (col, reading) :: columns, buf => do
    if range.any (!sensorValueInColumn col.start ·) then encodeColumns type range columns buf
    else
      let buf ← sensorColumnEncode buf type col reading
      encodeColumns type range columns buf

/-- `handle_series_get`: the response, if one is sent, without the opcode. -/
def handleSeriesGet (sensors : List SeriesSensor) (request rsp : NetBuf) : Option NetBuf :=
  if request.data.length < 2 then none
  else
    let (id, buf) := request.pullLe 2
    if id = propIdProhibited then none
    else
      let rsp := rsp.addLe 2 id
      match sensors.find? (·.type.id = id) with
      | none => some rsp
      | some sensor =>
        match sensor.columns, sensor.hasGet with
        | some columns, true =>
          (do
            let range ← decodeRange (sensorColumnFormatGet sensor.type) buf
            encodeColumns sensor.type range columns rsp).toOption
        | _, _ => some rsp

/-- `struct bt_mesh_sensor_series_entry`. -/
structure SeriesEntry where
  column : SensorColumn
  value : List SensorValue
  deriving DecidableEq, Repr

/-- The end that `parse_series_entry` computes. -/
def columnStop (start width : SensorValue) : SensorValue :=
  splitMill ((start.val1 + width.val1) * 1000000 + (start.val2 + width.val2))

def parseSeriesEntry (type : SensorType) (colFormat : SensorFormat) (buf : NetBuf) :
    NetBuf × Except Errno SeriesEntry :=
  match colFormat.decode buf with
  | (buf, .error e) => (buf, .error e)
  | (buf, .ok start) =>
    if buf.data.length = 0 then (buf, .error .ENOENT)
    else
      match colFormat.decode buf with
      | (buf, .error e) => (buf, .error e)
      | (buf, .ok width) =>
        let (buf, values) := sensorValueDecode type.channels buf
        (buf, values.map (⟨⟨start, columnStop start width⟩, ·⟩))

/-- What the `series_entry` callback is called with. After a failed parse the entry has no defined
value. -/
structure SeriesReport where
  index : Nat
  count : Nat
  entry : Except Errno SeriesEntry

/-- `struct series_data_rsp`, of a caller that waits for the series status of a server. -/
structure SeriesRsp where
  id : Nat
  count : Nat
  entries : List (Except Errno SeriesEntry)

/-- The loop of `handle_series_status` from index `i`, for `left` more entries. -/
def seriesLoop (type : SensorType) (colFormat : SensorFormat) (count : Nat) :
    Nat → Nat → NetBuf → List SeriesReport
  | 0, _, _ => []
  | left + 1, i, buf =>
    let (buf, entry) := parseSeriesEntry type colFormat buf
    ⟨i, count, entry⟩ :: seriesLoop type colFormat count left (i + 1) buf

/-- How `handle_series_status` ends. -/
inductive SeriesOutcome
  | unknownType (id : Nat)
  | nullDereference
  | done (reports : List SeriesReport) (rsp : Option SeriesRsp)

/-- The number of entries that `handle_series_status` computes, of type `uint8_t`. -/
def seriesCount (type : SensorType) (colFormat : SensorFormat) (len : Nat) : Nat :=
  (len / colFormat.size * 2 + sensorValueLen type) % 256

/-- `handle_series_status`, where `ack` is the response of a waiting request that the message
matches. With such a request the ID is read through `rsp` while `rsp` is still null, so the stores to
the response behind it are never reached. -/
def handleSeriesStatus (table : TypeTable) (ack : Option SeriesRsp) (buf : NetBuf) :
    SeriesOutcome :=
  let (id, buf) := buf.pullLe 2
  match sensorTypeGet table id with
  | none => .unknownType id
  | some type =>
    if ack.isSome then .nullDereference
    else
      let colFormat := sensorColumnFormatGet type
      let count := seriesCount type colFormat buf.data.length
      .done (seriesLoop type colFormat count count 0 buf) none

/-- The conversion to an `int` is off by a multiple of `2 ^ 32`. -/
private theorem toSigned_eq_add (x : Int) : ∃ k, toSigned 32 x = x + k * 2 ^ 32
    ∧ -2 ^ 31 ≤ toSigned 32 x ∧ toSigned 32 x < 2 ^ 31 := by
  refine ⟨-((x + 2 ^ 31) / 2 ^ 32), ?_, ?_, ?_⟩
  · rw [toSigned, Int.bmod_def]
    split <;> omega
  · have hle := Int.le_bmod (x := x) (m := 2 ^ 32) (by decide)
    rw [toSigned]
    norm_num at hle ⊢
    exact hle
  · have hlt := Int.bmod_lt (x := x) (m := 2 ^ 32) (by decide)
    rw [toSigned]
    norm_num at hlt ⊢
    exact hlt

private theorem toSigned_add_mul (x k : Int) : toSigned 32 (x + k * 2 ^ 32) = toSigned 32 x :=
  Int.add_mul_bmod_self_right x k (2 ^ 32)

/-- A negative `int` of millionths is split as a value just below `2 ^ 64`. -/
theorem splitMill_eq (x : Int) : splitMill x = if 0 ≤ toSigned 32 x
    then ⟨toSigned 32 x / 1000000, toSigned 32 x % 1000000⟩
    else ⟨(2 ^ 64 + toSigned 32 x) / 1000000 - 4295 * 2 ^ 32,
      (2 ^ 64 + toSigned 32 x) % 1000000⟩ := by
  obtain ⟨-, -, hge, hlt⟩ := toSigned_eq_add x
  simp only [splitMill]
  set mill := toSigned 32 x
  split
  · rw [toUnsigned_of_nonneg (by omega) (by omega), toSigned_of_mem (by omega) (by omega),
      toSigned_of_mem (by omega) (by omega)]
  · have hunsigned : toUnsigned 64 mill = 2 ^ 64 + mill := by
      rw [toUnsigned]
      omega
    have hquotient : toSigned 32 ((2 ^ 64 + mill) / 1000000)
        = (2 ^ 64 + mill) / 1000000 - 4295 * 2 ^ 32 := by
      rw [← toSigned_of_mem (w := 31) (x := (2 ^ 64 + mill) / 1000000 - 4295 * 2 ^ 32)
        (by omega) (by omega)]
      exact (Int.sub_mul_bmod_self_right ((2 ^ 64 + mill) / 1000000) 4295 (2 ^ 32)).symm
    rw [hunsigned, hquotient, toSigned_of_mem (by omega) (by omega)]

/-- The parts have the same millionths again, up to a multiple of `2 ^ 32`. -/
theorem splitMill_mill (x : Int) :
    ∃ k, (splitMill x).val1 * 1000000 + (splitMill x).val2 = x + k * 2 ^ 32 := by
  obtain ⟨k, hk, -, -⟩ := toSigned_eq_add x
  rw [splitMill_eq]
  split
  · refine ⟨k, ?_⟩
    simp only
    omega
  · refine ⟨k + 2 ^ 32 - 4295 * 1000000, ?_⟩
    simp only
    omega

theorem columnStop_columnWidth (col : SensorColumn) :
    columnStop col.start (columnWidth col)
      = splitMill (col.stop.val1 * 1000000 + col.stop.val2) := by
  obtain ⟨k, hk⟩ := splitMill_mill
    ((col.stop.val1 - col.start.val1) * 1000000 + (col.stop.val2 - col.start.val2))
  rw [columnStop, columnWidth]
  set width := splitMill
    ((col.stop.val1 - col.start.val1) * 1000000 + (col.stop.val2 - col.start.val2))
  have hmill : (col.start.val1 + width.val1) * 1000000 + (col.start.val2 + width.val2)
      = col.stop.val1 * 1000000 + col.stop.val2 + k * 2 ^ 32 := by omega
  rw [hmill, splitMill, toSigned_add_mul]
  rfl

/-- An end that the client rebuilds: it is not negative, has less than 2 ^ 31 millionths and a
fraction of less than one. The second range is where the truncated quotient of a negative value
happens to be the value. -/
def StopSurvives (stop : SensorValue) : Prop :=
  (0 ≤ stop.val2 ∧ stop.val2 < 1000000) ∧
    ((0 ≤ stop.val1 * 1000000 + stop.val2 ∧ stop.val1 * 1000000 + stop.val2 < 2 ^ 31)
      ∨ (-140462610448384 - 2 ^ 31 ≤ stop.val1 * 1000000 + stop.val2
        ∧ stop.val1 * 1000000 + stop.val2 < -140462610448384))

instance (stop : SensorValue) : Decidable (StopSurvives stop) :=
  inferInstanceAs (Decidable ((_ ∧ _) ∧ (_ ∧ _ ∨ _ ∧ _)))

theorem splitMill_eq_iff (stop : SensorValue) :
    splitMill (stop.val1 * 1000000 + stop.val2) = stop ↔ StopSurvives stop := by
  obtain ⟨k, hk, hge, hlt⟩ := toSigned_eq_add (stop.val1 * 1000000 + stop.val2)
  rw [splitMill_eq, StopSurvives]
  set mill := toSigned 32 (stop.val1 * 1000000 + stop.val2)
  obtain ⟨val1, val2⟩ := stop
  simp only at hk ⊢
  split
  · rw [SensorValue.mk.injEq]
    omega
  · rw [SensorValue.mk.injEq]
    omega

def selected (range : Option SensorColumn)
    (columns : List (SensorColumn × Except Errno (List SensorValue))) :
    List (SensorColumn × Except Errno (List SensorValue)) :=
  columns.filter fun column => !range.any (!sensorValueInColumn column.1.start ·)

def readEntry (column : SensorColumn × List SensorValue) : SeriesEntry :=
  ⟨⟨column.1.start, splitMill (column.1.stop.val1 * 1000000 + column.1.stop.val2)⟩, column.2⟩

/-- The formats read back what they encode for a column: its start, the width that is sent, and the
channel values. -/
structure ColumnRoundTrips (type : SensorType) (column : SensorColumn × List SensorValue) :
    Prop where
  start : ∀ bytes, (sensorColumnFormatGet type).payload column.1.start = .ok bytes →
    (sensorColumnFormatGet type).interpret bytes = .ok column.1.start
  width : ∀ bytes, (sensorColumnFormatGet type).payload (columnWidth column.1) = .ok bytes →
    (sensorColumnFormatGet type).interpret bytes = .ok (columnWidth column.1)
  values : ∀ bytes, payloads type.channels column.2 = .ok bytes →
    interprets type.channels bytes = .ok column.2

structure ColumnBytes (type : SensorType) (column : SensorColumn × List SensorValue)
    (bytes : List UInt8) : Prop where
  length : bytes.length = (sensorColumnFormatGet type).size * 2 + type.len
  parse : ColumnRoundTrips type column → ∀ rest size,
    parseSeriesEntry type (sensorColumnFormatGet type) ⟨bytes ++ rest, size⟩
      = (⟨rest, size⟩, .ok (readEntry column))

theorem sensorColumnEncode_eq_ok {buf buf' : NetBuf} {type : SensorType} {col : SensorColumn}
    {values : List SensorValue} (h : sensorColumnEncode buf type col (.ok values) = .ok buf') :
    ∃ bytes, buf' = buf.addMem bytes ∧ ColumnBytes type (col, values) bytes := by
  simp only [sensorColumnEncode, bind_eq_ok, pure_eq_ok] at h
  obtain ⟨buf₁, hencStart, buf₂, hencWidth, values', hvalues, _, hresult, rfl⟩ := h
  cases hvalues
  obtain ⟨start, hstart, rfl⟩ := SensorFormat.exists_of_encode_eq_ok hencStart
  obtain ⟨width, hwidth, rfl⟩ := SensorFormat.exists_of_encode_eq_ok hencWidth
  obtain ⟨bytes, hbytes, hbuf⟩ := exists_of_sensorValueEncode_eq_ok hresult
  have hstartLen := (sensorColumnFormatGet type).length_payload _ _ hstart
  have hwidthLen := (sensorColumnFormatGet type).length_payload _ _ hwidth
  have hbytesLen := length_payloads hbytes
  refine ⟨start ++ (width ++ bytes), ?_, ?_, ?_⟩
  · rw [hbuf, NetBuf.addMem_addMem, NetBuf.addMem_addMem]
  · rw [List.length_append, List.length_append, hstartLen, hwidthLen, hbytesLen, SensorType.len]
    omega
  · intro hround rest size
    have hne : ¬ (width ++ (bytes ++ rest)).length = 0 := by
      have hpos := (sensorColumnFormatGet type).size_pos
      rw [List.length_append]
      omega
    simp only [parseSeriesEntry]
    rw [List.append_assoc, SensorFormat.decode_append _ hstartLen, hround.start _ hstart,
      List.append_assoc]
    simp only [if_neg hne]
    rw [SensorFormat.decode_append _ hwidthLen, hround.width _ hwidth]
    simp only [sensorValueDecode_append hbytesLen (hround.values _ hbytes), readEntry,
      columnStop_columnWidth, Except.map]

def entryReports (count : Nat) : Nat → List SeriesEntry → List SeriesReport
  | _, [] => []
  | i, entry :: entries => ⟨i, count, .ok entry⟩ :: entryReports count (i + 1) entries

structure ColumnsBytes (type : SensorType) (columns : List (SensorColumn × List SensorValue))
    (bytes : List UInt8) : Prop where
  length : bytes.length = columns.length * ((sensorColumnFormatGet type).size * 2 + type.len)
  parse : (∀ column ∈ columns, ColumnRoundTrips type column) → ∀ count i size,
    seriesLoop type (sensorColumnFormatGet type) count columns.length i ⟨bytes, size⟩
      = entryReports count i (columns.map readEntry)

theorem ColumnsBytes.nil (type : SensorType) : ColumnsBytes type [] [] :=
  ⟨by simp, fun _ _ _ _ => rfl⟩

theorem ColumnsBytes.cons {type : SensorType} {column : SensorColumn × List SensorValue}
    {columns : List (SensorColumn × List SensorValue)} {first rest : List UInt8}
    (hfirst : ColumnBytes type column first) (hrest : ColumnsBytes type columns rest) :
    ColumnsBytes type (column :: columns) (first ++ rest) := by
  constructor
  · rw [List.length_append, hfirst.length, hrest.length, List.length_cons, Nat.add_mul]
    omega
  · intro hround count i size
    simp only [List.length_cons, seriesLoop, List.map_cons, entryReports]
    rw [hfirst.parse (hround column List.mem_cons_self)]
    simp only [hrest.parse (fun column hcolumn => hround column (List.mem_cons_of_mem _ hcolumn))]

theorem encodeColumns_eq_ok {type : SensorType} {range : Option SensorColumn}
    {columns : List (SensorColumn × Except Errno (List SensorValue))}
    {sel : List (SensorColumn × List SensorValue)} {buf buf' : NetBuf}
    (hsel : selected range columns = sel.map fun column => (column.1, .ok column.2))
    (h : encodeColumns type range columns buf = .ok buf') :
    ∃ bytes, buf' = buf.addMem bytes ∧ ColumnsBytes type sel bytes := by
  induction columns generalizing sel buf with
  | nil =>
    cases h
    rw [selected, List.filter_nil, eq_comm, List.map_eq_nil_iff] at hsel
    rw [hsel]
    exact ⟨[], (NetBuf.addMem_nil _).symm, .nil type⟩
  | cons column columns ih =>
    obtain ⟨col, reading⟩ := column
    by_cases hskip : range.any (!sensorValueInColumn col.start ·)
    · rw [selected, List.filter_cons_of_neg (by simpa using hskip)] at hsel
      simp only [encodeColumns, if_pos hskip] at h
      exact ih hsel h
    · rw [selected, List.filter_cons_of_pos (by simpa using hskip)] at hsel
      cases sel with
      | nil => cases hsel
      | cons first sel =>
        rw [List.map_cons, List.cons.injEq, Prod.mk.injEq] at hsel
        obtain ⟨⟨hcol, hreading⟩, hsel⟩ := hsel
        simp only [encodeColumns, if_neg hskip, bind_eq_ok] at h
        obtain ⟨mid, hmid, hloop⟩ := h
        rw [hcol, hreading] at hmid
        obtain ⟨bytes, rfl, hbytes⟩ := sensorColumnEncode_eq_ok hmid
        obtain ⟨rest, rfl, hrest⟩ := ih hsel hloop
        exact ⟨bytes ++ rest, NetBuf.addMem_addMem _ _ _, .cons hbytes hrest⟩

structure SeriesRequest (sensors : List SeriesSensor) (request : NetBuf) (sensor : SeriesSensor)
    (columns : List (SensorColumn × Except Errno (List SensorValue)))
    (range : Option SensorColumn) : Prop where
  length : 2 ≤ request.data.length
  id : (request.pullLe 2).1 = sensor.type.id
  found : sensors.find? (·.type.id = sensor.type.id) = some sensor
  columns : sensor.columns = some columns
  hasGet : sensor.hasGet = true
  range : decodeRange (sensorColumnFormatGet sensor.type) (request.pullLe 2).2 = .ok range

section Agreement

variable {sensors : List SeriesSensor} {request : NetBuf} {sensor : SeriesSensor}
  {columns : List (SensorColumn × Except Errno (List SensorValue))} {range : Option SensorColumn}

theorem handleSeriesGet_eq (hreq : SeriesRequest sensors request sensor columns range)
    (rsp : NetBuf) : handleSeriesGet sensors request rsp
      = (encodeColumns sensor.type range columns (rsp.addLe 2 sensor.type.id)).toOption := by
  have hid : sensor.type.id ≠ propIdProhibited := Nat.pos_iff_ne_zero.mp sensor.type.id_pos
  simp only [handleSeriesGet, if_neg (Nat.not_lt.mpr hreq.length), hreq.id, if_neg hid,
    hreq.found, hreq.columns, hreq.hasGet, hreq.range]
  rfl

theorem exists_of_handleSeriesGet_eq_some
    (hreq : SeriesRequest sensors request sensor columns range)
    {sel : List (SensorColumn × List SensorValue)}
    (hsel : selected range columns = sel.map fun column => (column.1, .ok column.2))
    {capacity : Nat} {msg : NetBuf}
    (hsent : handleSeriesGet sensors request ⟨[], capacity⟩ = some msg) :
    ∃ bytes, msg = ⟨leBytes 2 sensor.type.id ++ bytes, capacity⟩
      ∧ ColumnsBytes sensor.type sel bytes := by
  rw [handleSeriesGet_eq hreq] at hsent
  cases hencode : encodeColumns sensor.type range columns
      (NetBuf.addLe ⟨[], capacity⟩ 2 sensor.type.id) with
  | error e =>
    rw [hencode] at hsent
    cases hsent
  | ok buf =>
    rw [hencode] at hsent
    cases hsent
    obtain ⟨bytes, rfl, hbytes⟩ := encodeColumns_eq_ok hsel hencode
    refine ⟨bytes, ?_, hbytes⟩
    rw [NetBuf.addLe_eq_addMem, Nat.mod_eq_of_lt sensor.type.id_lt, NetBuf.addMem_addMem]
    rfl

def storeColumns (sel : List (SensorColumn × List SensorValue)) (rsp : SeriesRsp) : SeriesRsp :=
  { rsp with
    count := min sel.length rsp.count
    entries := (sel.take rsp.count).map fun column => .ok ⟨column.1, column.2⟩ }

/-- The client reports the columns in order with their ends and values, and completes the response
of a waiting caller. -/
def SeriesAgrees (table : TypeTable) (ack : Option SeriesRsp) (msg : NetBuf)
    (sel : List (SensorColumn × List SensorValue)) : Prop :=
  handleSeriesStatus table ack msg
    = .done (entryReports sel.length 0 (sel.map fun column => ⟨column.1, column.2⟩))
      (ack.map (storeColumns sel))

theorem length_seriesLoop (type : SensorType) (colFormat : SensorFormat) (count left i : Nat)
    (buf : NetBuf) : (seriesLoop type colFormat count left i buf).length = left := by
  induction left generalizing i buf with
  | zero => rfl
  | succ left ih =>
    simp only [seriesLoop, List.length_cons, ih]

theorem length_entryReports (count i : Nat) (entries : List SeriesEntry) :
    (entryReports count i entries).length = entries.length := by
  induction entries generalizing i with
  | nil => rfl
  | cons entry entries ih => rw [entryReports, List.length_cons, ih, List.length_cons]

theorem entryReports_inj {count i : Nat} {entries entries' : List SeriesEntry}
    (h : entryReports count i entries = entryReports count i entries') : entries = entries' := by
  induction entries generalizing i entries' with
  | nil =>
    cases entries' with
    | nil => rfl
    | cons _ _ => cases h
  | cons entry entries ih =>
    cases entries' with
    | nil => cases h
    | cons entry' entries' =>
      simp only [entryReports, List.cons.injEq, SeriesReport.mk.injEq, true_and,
        Except.ok.injEq] at h
      rw [h.1, ih h.2]

theorem map_readEntry_eq_iff (sel : List (SensorColumn × List SensorValue)) :
    sel.map readEntry = sel.map (fun column => ⟨column.1, column.2⟩)
      ↔ ∀ column ∈ sel, StopSurvives column.1.stop := by
  rw [List.map_inj_left]
  apply forall₂_congr
  intro column _
  rw [← splitMill_eq_iff, readEntry]
  constructor
  · intro h
    exact (SensorColumn.mk.inj (SeriesEntry.mk.inj h).1).2
  · intro h
    rw [h]

/-- Server and client agree on the columns of a series exactly if no caller waits for them, the
number that the client computes is the number of columns, and every end survives. -/
theorem seriesAgrees_iff (table : TypeTable)
    (hreq : SeriesRequest sensors request sensor columns range)
    (hknown : sensor.type ∈ table.types) {sel : List (SensorColumn × List SensorValue)}
    (hsel : selected range columns = sel.map fun column => (column.1, .ok column.2))
    (hround : ∀ column ∈ sel, ColumnRoundTrips sensor.type column) {capacity : Nat} {msg : NetBuf}
    (hsent : handleSeriesGet sensors request ⟨[], capacity⟩ = some msg)
    (ack : Option SeriesRsp) :
    SeriesAgrees table ack msg sel ↔ ack = none
      ∧ seriesCount sensor.type (sensorColumnFormatGet sensor.type)
          (sel.length * ((sensorColumnFormatGet sensor.type).size * 2 + sensor.type.len))
        = sel.length
      ∧ ∀ column ∈ sel, StopSurvives column.1.stop := by
  obtain ⟨bytes, rfl, hbytes⟩ := exists_of_handleSeriesGet_eq_some hreq hsel hsent
  have hpull := NetBuf.pullLe_leBytes 2 sensor.type.id bytes capacity
  rw [Nat.mod_eq_of_lt (show sensor.type.id < 2 ^ (8 * 2) from sensor.type.id_lt)] at hpull
  simp only [SeriesAgrees, handleSeriesStatus, hpull, sensorTypeGet_of_mem hknown]
  cases ack with
  | some rsp => simp
  | none =>
    simp only [Option.isSome_none, Bool.false_eq_true, if_false, hbytes.length, Option.map_none,
      true_and]
    set count := seriesCount sensor.type (sensorColumnFormatGet sensor.type)
      (sel.length * ((sensorColumnFormatGet sensor.type).size * 2 + sensor.type.len))
    constructor
    · intro h
      have hreports := (SeriesOutcome.done.inj h).1
      have hcount : count = sel.length := by
        have hlength := congrArg List.length hreports
        rw [length_seriesLoop, length_entryReports, List.length_map] at hlength
        exact hlength
      rw [hcount, hbytes.parse hround] at hreports
      exact ⟨hcount, (map_readEntry_eq_iff sel).mp (entryReports_inj hreports)⟩
    · rintro ⟨hcount, hstops⟩
      rw [hcount, hbytes.parse hround, (map_readEntry_eq_iff sel).mpr hstops]

end Agreement

def avgAmbTempChannels : List SensorFormat :=
  [.ofScalar temp8 temp8_size_pos temp8_size_le, timeDecihourFormat, timeDecihourFormat]

theorem avgAmbTempInDay_id_pos : 0 < 0x0001 := by decide

theorem avgAmbTempInDay_id_lt : 0x0001 < 2 ^ 16 := by decide

theorem avgAmbTempChannels_pos : 0 < (avgAmbTempChannels.map SensorFormat.size).sum := by decide

theorem avgAmbTempChannels_lt : (avgAmbTempChannels.map SensorFormat.size).sum < 128 := by decide

/-- `bt_mesh_sensor_avg_amb_temp_in_day`. -/
def avgAmbTempInDay : SensorType where
  id := 0x0001
  flagSeries := true
  channels := avgAmbTempChannels
  id_pos := avgAmbTempInDay_id_pos
  id_lt := avgAmbTempInDay_id_lt
  len_pos := avgAmbTempChannels_pos
  len_lt := avgAmbTempChannels_lt

def avgAmbTempTable : TypeTable := ⟨[avgAmbTempInDay], by decide⟩

def dayColumn : SensorColumn × List SensorValue :=
  (⟨⟨6, 0⟩, ⟨18, 0⟩⟩, [⟨21, 500000⟩, ⟨6, 0⟩, ⟨18, 0⟩])

def dayServer : List SeriesSensor :=
  [⟨avgAmbTempInDay, some [(dayColumn.1, .ok dayColumn.2)], true⟩]

def dayMessage : NetBuf := ⟨[1, 0, 60, 120, 43, 60, 180], 379⟩

private theorem roundTrips_of_returnsWith {α β : Type} [DecidableEq α]
    {encode : α → Except Errno β} {decode : β → Except Errno α} {value : α}
    (h : returnsWith (encode value >>= decode) (· = value) = true) :
    ∀ bytes, encode value = .ok bytes → decode bytes = .ok value := by
  intro bytes hbytes
  obtain ⟨result, hresult, heq⟩ := exists_of_returnsWith _ h
  rw [hbytes] at hresult
  rw [decide_eq_true_iff] at heq
  rw [← heq]
  exact hresult

/-- For one column the client reports thirteen entries. -/
theorem dayMessage_not_agrees :
    handleSeriesGet dayServer ⟨[1, 0], 2⟩ ⟨[], 379⟩ = some dayMessage
      ∧ ColumnRoundTrips avgAmbTempInDay dayColumn
      ∧ ¬ SeriesAgrees avgAmbTempTable none dayMessage [dayColumn] := by
  refine ⟨by decide +kernel, ⟨?_, ?_, ?_⟩, ?_⟩
  · exact roundTrips_of_returnsWith (by decide +kernel)
  · exact roundTrips_of_returnsWith (by decide +kernel)
  · exact roundTrips_of_returnsWith (by decide +kernel)
  · intro h
    have hreports := (SeriesOutcome.done.inj h).1
    have hlength := congrArg List.length hreports
    rw [length_seriesLoop, length_entryReports] at hlength
    revert hlength
    decide

/-- `bt_mesh_sensor_motion_sensed`. -/
def motionSensed : SensorType where
  id := 0x0042
  flagSeries := false
  channels := [.ofScalar percentage8 (by decide) (by decide)]
  id_pos := by decide
  id_lt := by decide
  len_pos := by decide
  len_lt := by decide

def motionTable : TypeTable := ⟨[motionSensed], by decide⟩

/-- A column for each tenth of the first 5.1 hours. For 51 columns of three bytes the number of
entries wraps around to 51. -/
def tenthColumns : List (SensorColumn × List SensorValue) :=
  (List.range 51).map fun i : Nat =>
    (⟨⟨i / 10, i % 10 * 100000⟩, ⟨(i + 1) / 10, (i + 1) % 10 * 100000⟩⟩, [⟨50, 0⟩])

def tenthSensor : SeriesSensor :=
  ⟨motionSensed, some (tenthColumns.map fun column => (column.1, .ok column.2)), true⟩

theorem tenthColumns_agree :
    ∃ msg, handleSeriesGet [tenthSensor] ⟨[0x42, 0], 2⟩ ⟨[], 379⟩ = some msg
      ∧ SeriesAgrees motionTable none msg tenthColumns := by
  have hrequest : SeriesRequest [tenthSensor] ⟨[0x42, 0], 2⟩ tenthSensor
      (tenthColumns.map fun column => (column.1, .ok column.2)) none :=
    ⟨by decide, by decide, rfl, rfl, rfl, rfl⟩
  have hsome : (handleSeriesGet [tenthSensor] ⟨[0x42, 0], 2⟩ ⟨[], 379⟩).isSome := by
    decide +kernel
  obtain ⟨msg, hmsg⟩ := Option.isSome_iff_exists.mp hsome
  have hselected : selected none (tenthColumns.map fun column => (column.1, .ok column.2))
      = tenthColumns.map fun column => (column.1, .ok column.2) := by
    simp [selected]
  have hstarts : ∀ column ∈ tenthColumns, returnsWith (timeDecihourFormat.payload column.1.start
      >>= timeDecihourFormat.interpret) (· = column.1.start) = true := by
    decide +kernel
  have hwidths : ∀ column ∈ tenthColumns, returnsWith
      (timeDecihourFormat.payload (columnWidth column.1) >>= timeDecihourFormat.interpret)
      (· = columnWidth column.1) = true := by
    decide +kernel
  have hvalues : ∀ column ∈ tenthColumns, returnsWith (payloads motionSensed.channels column.2
      >>= interprets motionSensed.channels) (· = column.2) = true := by
    decide +kernel
  have hround : ∀ column ∈ tenthColumns, ColumnRoundTrips motionSensed column := by
    intro column hcolumn
    exact ⟨roundTrips_of_returnsWith (hstarts column hcolumn),
      roundTrips_of_returnsWith (hwidths column hcolumn),
      roundTrips_of_returnsWith (hvalues column hcolumn)⟩
  refine ⟨msg, hmsg, ?_⟩
  rw [seriesAgrees_iff motionTable hrequest List.mem_cons_self hselected hround hmsg none]
  exact ⟨rfl, by decide, by decide⟩

end SdkNrf.Mesh
