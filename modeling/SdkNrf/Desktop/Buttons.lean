import SdkNrf.Desktop.FnKeys

/-!
# Key matrix scanning

One scan of the key matrix: readings that bounce are replaced by what is settled, keys that may be ghosts are
not taken as pressed, and an event is emitted for each key that changes, up to a limit.
-/

namespace SdkNrf.Desktop.Buttons

open SdkNrf.Desktop.FnKeys

def BIT (n : Nat) : UInt32 := ⟨1#32 <<< n⟩

def getBit (mask : UInt32) (n : Nat) : Bool := mask &&& BIT n ≠ 0

def WRITE_BIT (mask : UInt32) (n : Nat) (set : Bool) : UInt32 :=
  if set then mask ||| BIT n else mask &&& ~~~BIT n

def is_power_of_two (x : UInt32) : Bool := x ≠ 0 ∧ x &&& (x - 1) = 0

structure Matrix where
  columns : Nat
  rows : Nat
  eventLimit : Nat

abbrev Masks := Nat → UInt32

/-- The static variables of `scan_fn`. -/
structure Scanned where
  settledState : Masks
  prevState : Masks

section Code

variable (mx : Matrix)

def debounce (s : Scanned) (rawState : Masks) : Masks := fun i =>
  let bounceMask := s.prevState i ^^^ rawState i
  (rawState i &&& ~~~bounceMask) ||| (s.settledState i &&& bounceMask)

def blockingMask (rawState : Masks) (i : Nat) : UInt32 :=
  (List.range mx.columns).foldl (fun mask j => if i = j then mask else mask ||| rawState j) 0

def unghost (rawState : Masks) : Masks := fun i =>
  if is_power_of_two (rawState i) then rawState i
  else rawState i &&& (blockingMask mx rawState i ^^^ rawState i)

def places : List (Nat × Nat) :=
  (List.range mx.columns).flatMap fun i => (List.range mx.rows).map fun j => (i, j)

def emitFrom (rawState curState : Masks) : List (Nat × Nat) → Masks → Nat → Masks × List ButtonEvent
  | [], settledState, _ => (settledState, [])
  | (i, j) :: rest, settledState, evtLimit =>
    let isRawPressed := getBit (rawState i) j
    let isPressed := getBit (curState i) j
    let wasPressed := getBit (settledState i) j
    if isPressed ≠ wasPressed ∧ isPressed = isRawPressed ∧ evtLimit < mx.eventLimit then
      let emitted := emitFrom rawState curState rest
        (Function.update settledState i (WRITE_BIT (settledState i) j isPressed)) (evtLimit + 1)
      (emitted.1, (KEY_ID i j, isPressed) :: emitted.2)
    else emitFrom rawState curState rest settledState evtLimit

/-- One scan of the rows of each column: the static variables after it, and the events. -/
def scan (s : Scanned) (rawState : Masks) : Scanned × List ButtonEvent :=
  let debounced := debounce s rawState
  let emitted := emitFrom mx debounced (unghost mx debounced) (places mx) s.settledState 0
  (⟨emitted.1, rawState⟩, emitted.2)

end Code

theorem getBit_eq (mask : UInt32) {n : Nat} (hn : n < 32) : getBit mask n = mask.toBitVec.getLsbD n := by
  have hbit : (BIT n).toBitVec = BitVec.twoPow 32 n := by rw [BIT, BitVec.twoPow_eq]
  have hne : BitVec.twoPow 32 n ≠ 0#32 := by
    intro h
    have := congrArg (·.getLsbD n) h
    simp [hn] at this
  have hand : mask &&& BIT n = 0 ↔ mask.toBitVec.getLsbD n = false := by
    rw [← UInt32.toBitVec_inj, UInt32.toBitVec_and, hbit, BitVec.and_twoPow]
    cases mask.toBitVec.getLsbD n <;> simp [hne]
  cases h : mask.toBitVec.getLsbD n <;> simp [getBit, hand, h]

theorem getBit_WRITE_BIT (mask : UInt32) {n k : Nat} (hn : n < 32) (hk : k < 32) (set : Bool) :
    getBit (WRITE_BIT mask n set) k = if k = n then set else getBit mask k := by
  have hbit : (BIT n).toBitVec = BitVec.twoPow 32 n := by rw [BIT, BitVec.twoPow_eq]
  rw [getBit_eq _ hk, getBit_eq _ hk, WRITE_BIT]
  by_cases hkn : k = n
  · subst hkn
    cases set <;> simp [hbit, hn]
  · cases set <;> simp [hbit, hk, hkn]

theorem getBit_debounce (s : Scanned) (rawState : Masks) (i : Nat) {j : Nat} (hj : j < 32) :
    getBit (debounce s rawState i) j =
      if getBit (rawState i) j = getBit (s.prevState i) j then getBit (rawState i) j
      else getBit (s.settledState i) j := by
  simp only [getBit_eq _ hj, debounce]
  simp only [UInt32.toBitVec_or, UInt32.toBitVec_and, UInt32.toBitVec_xor, UInt32.toBitVec_not,
    BitVec.getLsbD_or,
    BitVec.getLsbD_and, BitVec.getLsbD_xor, BitVec.getLsbD_not, hj]
  cases (rawState i).toBitVec.getLsbD j <;> cases (s.prevState i).toBitVec.getLsbD j <;> simp

theorem is_power_of_two_unique {x : UInt32} (h : is_power_of_two x = true) {j k : Nat} (hj : j < 32)
    (hk : k < 32)
    (hxj : getBit x j = true) (hxk : getBit x k = true) : j = k := by
  obtain ⟨hne, hand⟩ := of_decide_eq_true h
  have hnat : x.toNat &&& (x.toNat - 1) = 0 := by
    have hpos : (1 : UInt32) ≤ x := by
      rw [UInt32.le_iff_toNat_le]
      have : x.toNat ≠ 0 := fun h0 => hne (UInt32.toNat_inj.mp h0)
      exact Nat.one_le_iff_ne_zero.mpr this
    have := congrArg UInt32.toNat hand
    rwa [UInt32.toNat_and, UInt32.toNat_sub_of_le _ _ hpos] at this
  have hne' : x.toNat ≠ 0 := fun h0 => hne (UInt32.toNat_inj.mp h0)
  obtain ⟨n, hn⟩ := (Nat.and_sub_one_eq_zero_iff_isPowerOfTwo hne').mp hnat
  have hbit (m : Nat) (hm : m < 32) (hxm : getBit x m = true) : m = n := by
    rw [getBit_eq _ hm, BitVec.getLsbD, UInt32.toNat_toBitVec, hn, Nat.testBit_two_pow] at hxm
    exact (of_decide_eq_true hxm).symm
  rw [hbit j hj hxj, hbit k hk hxk]

theorem getBit_foldl (rawState : Masks) (i : Nat) {j : Nat} (hj : j < 32) (l : List Nat) (mask : UInt32) :
    getBit (l.foldl (fun mask k => if i = k then mask else mask ||| rawState k) mask) j = true ↔
      getBit mask j = true ∨ ∃ k ∈ l, k ≠ i ∧ getBit (rawState k) j = true := by
  induction l generalizing mask with
  | nil => simp
  | cons k l ih =>
    have hor : getBit (mask ||| rawState k) j = (getBit mask j || getBit (rawState k) j) := by
      simp [getBit_eq _ hj]
    rw [List.foldl_cons, ih]
    by_cases hik : i = k
    · subst hik
      simp
    · simp [hik, Ne.symm hik, hor, or_assoc]

theorem getBit_blockingMask (mx : Matrix) (rawState : Masks) (i : Nat) {j : Nat} (hj : j < 32) :
    getBit (blockingMask mx rawState i) j = true ↔
      ∃ k < mx.columns, k ≠ i ∧ getBit (rawState k) j = true := by
  rw [blockingMask, getBit_foldl rawState i hj]
  simp [getBit]

theorem getBit_unghost (mx : Matrix) (rawState : Masks) (i : Nat) {j : Nat} (hj : j < 32) :
    getBit (unghost mx rawState i) j = true ↔ getBit (rawState i) j = true ∧
      (is_power_of_two (rawState i) = true ∨
        ∀ k < mx.columns, k ≠ i → getBit (rawState k) j = false) := by
  have hblocking := getBit_blockingMask mx rawState i hj
  rw [unghost]
  by_cases hpow : is_power_of_two (rawState i) = true
  · simp [hpow]
  · have hand : getBit (rawState i &&& (blockingMask mx rawState i ^^^ rawState i)) j =
        (getBit (rawState i) j && (getBit (blockingMask mx rawState i) j ^^ getBit (rawState i) j)) := by
      simp [getBit_eq _ hj]
    have hnot : (∀ k < mx.columns, k ≠ i → getBit (rawState k) j = false) ↔
        getBit (blockingMask mx rawState i) j = false := by
      rw [← Bool.not_eq_true, hblocking]
      simp
    rw [if_neg hpow, hand, hnot]
    cases getBit (rawState i) j <;> cases getBit (blockingMask mx rawState i) j <;> simp [hpow]

section Events

variable {mx : Matrix} {rawState curState settledState : Masks}

def Matrix.Valid (mx : Matrix) : Prop := mx.columns ≤ 128 ∧ mx.rows ≤ 32

theorem mem_places {x : Nat × Nat} : x ∈ places mx ↔ x.1 < mx.columns ∧ x.2 < mx.rows := by
  obtain ⟨i, j⟩ := x
  simp [places]

theorem places_nodup (mx : Matrix) : (places mx).Nodup := by
  rw [places, List.nodup_flatMap]
  refine ⟨fun i _ => ?_, ?_⟩
  · exact List.nodup_range.map fun j k h => (Prod.mk.inj h).2
  · apply List.nodup_range.imp
    intro i k hik
    rw [Function.onFun, List.disjoint_left]
    intro x hx hx'
    obtain ⟨j, -, rfl⟩ := List.mem_map.mp hx
    obtain ⟨l, -, h⟩ := List.mem_map.mp hx'
    exact hik (Prod.mk.inj h).1.symm

theorem getBit_update (settledState : Masks) (i j : Nat) (hj : j < 32) (set : Bool) (k l : Nat)
    (hl : l < 32) :
    getBit (Function.update settledState i (WRITE_BIT (settledState i) j set) k) l =
      if (k, l) = (i, j) then set else getBit (settledState k) l := by
  by_cases hki : k = i
  · subst hki
    rw [Function.update_self, getBit_WRITE_BIT _ hj hl]
    simp
  · rw [Function.update_of_ne hki]
    simp [hki]

structure Emitted (mx : Matrix) (rawState curState settledState : Masks) (l : List (Nat × Nat))
    (evtLimit : Nat)
    (emitted : Masks × List ButtonEvent) : Prop where
  event : ∀ e ∈ emitted.2, ∃ x ∈ l, e = (KEY_ID x.1 x.2, getBit (curState x.1) x.2) ∧
    getBit (curState x.1) x.2 = getBit (rawState x.1) x.2 ∧
    getBit (settledState x.1) x.2 = !getBit (curState x.1) x.2
  others : ∀ k n, n < 32 → (k, n) ∉ l → getBit (emitted.1 k) n = getBit (settledState k) n
  settled : evtLimit + emitted.2.length < mx.eventLimit → ∀ x ∈ l,
    getBit (curState x.1) x.2 = getBit (rawState x.1) x.2 →
      getBit (emitted.1 x.1) x.2 = getBit (curState x.1) x.2

theorem emitFrom_spec (l : List (Nat × Nat)) (hl : l.Nodup) (hrows : ∀ x ∈ l, x.2 < 32) (settledState : Masks)
    (evtLimit : Nat) : Emitted mx rawState curState settledState l evtLimit
      (emitFrom mx rawState curState l settledState evtLimit) := by
  induction l generalizing settledState evtLimit with
  | nil => exact ⟨by simp [emitFrom], fun _ _ _ _ => rfl, by simp⟩
  | cons x rest ih =>
    obtain ⟨i, j⟩ := x
    obtain ⟨hx, hl⟩ := List.nodup_cons.mp hl
    obtain ⟨hj, hrows⟩ := List.forall_mem_cons.mp hrows
    rw [emitFrom]
    by_cases hemit : getBit (curState i) j ≠ getBit (settledState i) j ∧
        getBit (curState i) j = getBit (rawState i) j ∧ evtLimit < mx.eventLimit
    · rw [if_pos hemit]
      have hrest := ih hl hrows (Function.update settledState i
        (WRITE_BIT (settledState i) j (getBit (curState i) j)))
        (evtLimit + 1)
      refine ⟨?_, fun k n hn hkn => ?_, fun hlimit x hxmem heq => ?_⟩
      · rw [List.forall_mem_cons]
        refine ⟨⟨(i, j), List.mem_cons_self .., rfl, hemit.2.1, ?_⟩, fun e he => ?_⟩
        · cases hcur : getBit (curState i) j <;> simpa [hcur] using hemit.1
        · obtain ⟨x, hxmem, he, hraw, hold⟩ := hrest.event e he
          refine ⟨x, List.mem_cons_of_mem _ hxmem, he, hraw, ?_⟩
          have hne : (x.1, x.2) ≠ (i, j) := fun heq => hx (heq ▸ hxmem)
          rwa [getBit_update settledState i j hj _ x.1 x.2 (hrows x hxmem), if_neg hne] at hold
      · rw [List.mem_cons, not_or] at hkn
        rw [hrest.others k n hn hkn.2, getBit_update settledState i j hj _ k n hn, if_neg hkn.1]
      · rcases List.mem_cons.mp hxmem with rfl | hxmem
        · rw [hrest.others _ _ hj hx, getBit_update settledState i j hj _ i j hj, if_pos rfl]
        · apply hrest.settled _ x hxmem heq
          rw [List.length_cons] at hlimit
          omega
    · rw [if_neg hemit]
      have hrest := ih hl hrows settledState evtLimit
      refine ⟨fun e he => ?_, fun k n hn hkn => ?_, fun hlimit x hxmem heq => ?_⟩
      · obtain ⟨x, hxmem, he⟩ := hrest.event e he
        exact ⟨x, List.mem_cons_of_mem _ hxmem, he⟩
      · exact hrest.others k n hn fun hmem => hkn (List.mem_cons_of_mem _ hmem)
      · rcases List.mem_cons.mp hxmem with rfl | hxmem
        · rw [hrest.others _ _ hj hx]
          by_contra hne
          exact hemit ⟨Ne.symm hne, heq, by omega⟩
        · exact hrest.settled hlimit x hxmem heq

end Events

section Ghosts

variable {mx : Matrix} {closed : Nat → Nat → Prop} {rawState : Masks} {i j : Nat}

/-- A row reads as active when a path of closed keys leads to it from the column. -/
inductive Reads (closed : Nat → Nat → Prop) (i : Nat) : Nat → Prop
  | key {j : Nat} (h : closed i j) : Reads closed i j
  | path {j k n : Nat} (h : Reads closed i n) (hback : closed k n) (hforth : closed k j) : Reads closed i j

def Reading (mx : Matrix) (closed : Nat → Nat → Prop) (rawState : Masks) : Prop :=
  ∀ i < mx.columns, ∀ j < 32, getBit (rawState i) j = true ↔ Reads closed i j

theorem Reads.ghost (h : Reads closed i j) (hopen : ¬ closed i j) :
    (∃ n, n ≠ j ∧ closed i n) ∧ ∃ k, k ≠ i ∧ closed k j := by
  have hcolumn {n : Nat} (h : Reads closed i n) : ∃ n, closed i n := by
    induction h with
    | key h => exact ⟨_, h⟩
    | path _ _ _ ih => exact ih
  obtain ⟨n, hn⟩ := hcolumn h
  refine ⟨⟨n, fun heq => hopen (heq ▸ hn), hn⟩, ?_⟩
  cases h with
  | key h => exact absurd h hopen
  | path _ _ hforth => exact ⟨_, fun heq => hopen (heq ▸ hforth), hforth⟩

theorem closed_of_unghost (hplaces : ∀ i j, closed i j → i < mx.columns ∧ j < 32)
    (hraw : Reading mx closed rawState) (hi : i < mx.columns) (hj : j < 32)
    (h : getBit (unghost mx rawState i) j = true) : closed i j := by
  obtain ⟨hbit, halone⟩ := (getBit_unghost mx rawState i hj).mp h
  by_contra hopen
  obtain ⟨⟨n, hn, hcolumn⟩, k, hk, hrow⟩ := ((hraw i hi j hj).mp hbit).ghost hopen
  rcases halone with hpow | halone
  · have hn32 := (hplaces i n hcolumn).2
    exact hn (is_power_of_two_unique hpow hn32 hj ((hraw i hi n hn32).mpr (.key hcolumn)) hbit)
  · have hkcol := (hplaces k j hrow).1
    have hfalse := halone k hkcol hk
    rw [(hraw k hkcol j hj).mpr (.key hrow)] at hfalse
    contradiction

theorem is_power_of_two_of_alone {x : UInt32} (hj : j < 32) (hbit : getBit x j = true)
    (halone : ∀ n < 32, n ≠ j → getBit x n = false) : is_power_of_two x = true := by
  have hx : x.toNat = 2 ^ j := by
    apply Nat.eq_of_testBit_eq
    intro n
    rw [Nat.testBit_two_pow]
    have hget (m : Nat) (hm : m < 32) : getBit x m = x.toNat.testBit m := by
      rw [getBit_eq _ hm, BitVec.getLsbD, UInt32.toNat_toBitVec]
    by_cases hn : n < 32
    · rw [← hget n hn]
      by_cases hnj : n = j
      · simp [hnj, hbit]
      · simp [halone n hn hnj, Ne.symm hnj]
    · have hbig : x.toNat < 2 ^ n := x.toNat_lt.trans_le (Nat.pow_le_pow_right (by decide) (by omega))
      rw [Nat.testBit_lt_two_pow hbig, eq_comm, decide_eq_false_iff_not]
      omega
  have hpos : 0 < x.toNat := by
    rw [hx]
    exact Nat.two_pow_pos j
  have hone : (1 : UInt32) ≤ x := UInt32.le_iff_toNat_le.mpr hpos
  have hand : x.toNat &&& (x.toNat - 1) = 0 :=
    (Nat.and_sub_one_eq_zero_iff_isPowerOfTwo hpos.ne').mpr ⟨j, hx⟩
  rw [is_power_of_two, decide_eq_true_eq]
  refine ⟨fun h0 => ?_, ?_⟩
  · rw [h0] at hpos
    exact absurd hpos (by decide)
  · rw [← UInt32.toNat_inj, UInt32.toNat_and, UInt32.toNat_sub_of_le _ _ hone]
    exact hand

end Ghosts

section Scans

variable {mx : Matrix} {closed : Nat → Nat → Prop} {s : Scanned} {rawState : Masks}

def Stable (mx : Matrix) (s : Scanned) (rawState : Masks) : Prop :=
  ∀ i < mx.columns, s.prevState i = rawState i

theorem Stable.debounce (h : Stable mx s rawState) {i : Nat} (hi : i < mx.columns) :
    debounce s rawState i = rawState i := by
  simp [Buttons.debounce, h i hi]

theorem Stable.reading (h : Stable mx s rawState) (hraw : Reading mx closed rawState) :
    Reading mx closed (Buttons.debounce s rawState) := by
  intro i hi j hj
  rw [h.debounce hi]
  exact hraw i hi j hj

theorem scan_emitted (hmx : mx.Valid) (s : Scanned) (rawState : Masks) :
    Emitted mx (debounce s rawState) (unghost mx (debounce s rawState)) s.settledState (places mx) 0
      ((scan mx s rawState).1.settledState, (scan mx s rawState).2) :=
  emitFrom_spec _ (places_nodup mx) (fun _ hx => (mem_places.mp hx).2.trans_le hmx.2) _ 0

/-- An event is about a change that two scans have read. A key is reported as released only when it
is open, and, in a scan that reads what the one before has read, as pressed only when it is closed.
-/
theorem scan_reports (hmx : mx.Valid) (hplaces : ∀ i j, closed i j → i < mx.columns ∧ j < mx.rows)
    (hraw : Reading mx closed rawState) (e : ButtonEvent) (he : e ∈ (scan mx s rawState).2) :
    ∃ i < mx.columns, ∃ j < mx.rows, e.1 = KEY_ID i j ∧ getBit (s.settledState i) j = !e.2 ∧
      getBit (s.prevState i) j = e.2 ∧ getBit (rawState i) j = e.2 ∧ (e.2 = false → ¬ closed i j) ∧
      (Stable mx s rawState → e.2 = true → closed i j) := by
  obtain ⟨⟨i, j⟩, hmem, rfl, hsame, hold⟩ := (scan_emitted hmx s rawState).event e he
  obtain ⟨hi, hj⟩ := mem_places.mp hmem
  have hj32 : j < 32 := hj.trans_le hmx.2
  have hdebounce := getBit_debounce s rawState i hj32
  dsimp only at hsame hold ⊢
  rw [← hsame] at hdebounce
  by_cases hbounce : getBit (rawState i) j = getBit (s.prevState i) j
  · rw [if_pos hbounce] at hdebounce
    refine ⟨i, hi, j, hj, rfl, hold, hbounce ▸ hdebounce.symm, hdebounce.symm, fun hfalse hclosed => ?_,
      fun hstable htrue => ?_⟩
    · rw [hdebounce, (hraw i hi j hj32).mpr (.key hclosed)] at hfalse
      contradiction
    · apply closed_of_unghost (fun k n h => ?_) (hstable.reading hraw) hi hj32 htrue
      exact ⟨(hplaces k n h).1, (hplaces k n h).2.trans_le hmx.2⟩
  · rw [if_neg hbounce, hold] at hdebounce
    cases h : getBit (unghost mx (debounce s rawState) i) j <;> simp [h] at hdebounce

theorem reading_one : Reading ⟨2, 2, 4⟩ (fun i j => i = 0 ∧ j = 1) fun i => if i = 0 then 2 else 0 := by
  have hreads (i j : Nat) (h : Reads (fun i j => i = 0 ∧ j = 1) i j) : i = 0 ∧ j = 1 := by
    induction h with
    | key h => exact h
    | path _ _ hforth ih => exact ⟨ih.1, hforth.2⟩
  intro i hi j hj
  have hbits : ∀ i < 2, ∀ j < 32, getBit (if i = 0 then 2 else 0) j = true ↔ i = 0 ∧ j = 1 := by decide
  rw [hbits i hi j hj]
  exact ⟨fun h => .key h, hreads i j⟩

theorem scan_reports_one : ∃ i < 2, ∃ j < 2, (1 : UInt16) = KEY_ID i j ∧ getBit 0 j = false ∧
    getBit (if i = 0 then 2 else 0) j = true ∧ getBit (if i = 0 then 2 else 0) j = true ∧
    (true = false → ¬ (i = 0 ∧ j = 1)) ∧
    (Stable ⟨2, 2, 4⟩ ⟨fun _ => 0, fun i => if i = 0 then 2 else 0⟩ (fun i => if i = 0 then 2 else 0) →
      true = true → i = 0 ∧ j = 1) := by
  have hevent : (1, true) ∈ (scan ⟨2, 2, 4⟩ ⟨fun _ => 0, fun i => if i = 0 then 2 else 0⟩
      fun i => if i = 0 then 2 else 0).2 := by decide
  exact scan_reports ⟨by decide, by decide⟩
    (fun i j (h : i = 0 ∧ j = 1) => ⟨h.1 ▸ by decide, h.2 ▸ by decide⟩) reading_one (1, true) hevent

/-- After a scan that reads what the one before has read, and that did not reach the limit of its
events, no key is settled as pressed to which no path leads, and every closed key is that is the
only one of its column or the only one of its row. -/
theorem scan_settles (hmx : mx.Valid) (hraw : Reading mx closed rawState) (hstable : Stable mx s rawState)
    (hlimit : (scan mx s rawState).2.length < mx.eventLimit) {i j : Nat} (hi : i < mx.columns)
    (hj : j < mx.rows) :
    (¬ Reads closed i j → getBit ((scan mx s rawState).1.settledState i) j = false) ∧
    (closed i j → ((∀ n < 32, n ≠ j → ¬ Reads closed i n) ∨ ∀ k < mx.columns, k ≠ i → ¬ Reads closed k j) →
      getBit ((scan mx s rawState).1.settledState i) j = true) := by
  have hj32 : j < 32 := hj.trans_le hmx.2
  have hread := hstable.reading hraw
  have hsettled := (scan_emitted hmx s rawState).settled (by simpa using hlimit) (i, j)
    (mem_places.mpr ⟨hi, hj⟩)
  have hunghost := getBit_unghost mx (debounce s rawState) i hj32
  dsimp only at hsettled
  refine ⟨fun hnot => ?_, fun hclosed halone => ?_⟩
  · have hfalse : getBit (debounce s rawState i) j = false := by
      rw [← Bool.not_eq_true, hread i hi j hj32]
      exact hnot
    have hcur : getBit (unghost mx (debounce s rawState) i) j = false := by
      rw [← Bool.not_eq_true, hunghost, hfalse]
      simp
    rw [hsettled (by rw [hcur, hfalse]), hcur]
  · have htrue : getBit (debounce s rawState i) j = true := (hread i hi j hj32).mpr (.key hclosed)
    have hcur : getBit (unghost mx (debounce s rawState) i) j = true := by
      rw [hunghost]
      refine ⟨htrue, halone.imp (fun halone => ?_) fun halone k hk hki => ?_⟩
      · apply is_power_of_two_of_alone hj32 htrue
        intro n hn hnj
        rw [← Bool.not_eq_true, hread i hi n hn]
        exact halone n hn hnj
      · rw [← Bool.not_eq_true, hread k hk j hj32]
        exact halone k hk hki
    rw [hsettled (by rw [hcur, htrue]), hcur]

theorem scan_settles_one :
    (¬ Reads (fun i j => i = 0 ∧ j = 1) 0 1 → getBit ((scan ⟨2, 2, 4⟩
      ⟨fun _ => 0, fun i => if i = 0 then 2 else 0⟩ fun i =>
        if i = 0 then 2 else 0).1.settledState 0) 1 = false) ∧
    (0 = 0 ∧ 1 = 1 → ((∀ n < 32, n ≠ 1 → ¬ Reads (fun i j => i = 0 ∧ j = 1) 0 n) ∨
      ∀ k < 2, k ≠ 0 → ¬ Reads (fun i j => i = 0 ∧ j = 1) k 1) → getBit ((scan ⟨2, 2, 4⟩
      ⟨fun _ => 0, fun i => if i = 0 then 2 else 0⟩ fun i =>
        if i = 0 then 2 else 0).1.settledState 0) 1 = true) :=
  scan_settles ⟨by decide, by decide⟩
    reading_one (fun _ _ => rfl) (by decide) (by decide) (by decide)

end Scans

end SdkNrf.Desktop.Buttons
