import SdkNrf.EventManager.Processor
import SdkNrf.Framework.Strokes
import SdkNrf.Framework.BinarySearch

/-!
# Function keys

The listener that replaces key events while the function key is active.
-/

namespace SdkNrf.Desktop.FnKeys

open SdkNrf.EventManager

def KEY_ID (col row : Nat) : UInt16 := UInt16.ofNat (((col &&& 127) <<< 7) ||| (row &&& 127))

def KEY_COL (keyId : UInt16) : Nat := (keyId.toNat >>> 7) &&& 127

def KEY_ROW (keyId : UInt16) : Nat := keyId.toNat &&& 127

def FN_KEY_ID (col row : Nat) : UInt16 := KEY_ID col row ||| 0x4000

def IS_FN_KEY (keyId : UInt16) : Bool := 0x4000 &&& keyId ≠ 0

def fnOf (keyId : UInt16) : UInt16 := FN_KEY_ID (KEY_COL keyId) (KEY_ROW keyId)

theorem and_127 (n : Nat) : n &&& 127 = n % 128 := Nat.and_two_pow_sub_one_eq_mod n 7

theorem KEY_ID_toNat (col row : Nat) : (KEY_ID col row).toNat = (col % 128) * 128 + row % 128 := by
  have hrow : row % 128 < 2 ^ 7 := by omega
  rw [KEY_ID, UInt16.toNat_ofNat', and_127, and_127, ← Nat.shiftLeft_add_eq_or_of_lt hrow, Nat.shiftLeft_eq]
  omega

variable (keyId : UInt16)

theorem fnOf_toNat : (fnOf keyId).toNat = 2 ^ 14 + keyId.toNat % 2 ^ 14 := by
  have hkey : (KEY_ID (KEY_COL keyId) (KEY_ROW keyId)).toNat = keyId.toNat % 2 ^ 14 := by
    rw [KEY_ID_toNat, KEY_COL, KEY_ROW, and_127, and_127, Nat.shiftRight_eq_div_pow]
    omega
  have hbit : (0x4000 : UInt16).toNat = 1 <<< 14 := rfl
  rw [fnOf, FN_KEY_ID, UInt16.toNat_or, hkey, hbit, Nat.or_comm, ← Nat.shiftLeft_add_eq_or_of_lt (by omega),
    Nat.shiftLeft_eq]
  omega

theorem IS_FN_KEY_iff : IS_FN_KEY keyId = keyId.toNat.testBit 14 := by
  have hbit : (0x4000 : UInt16).toNat = 2 ^ 14 := rfl
  have hnat : (0x4000 &&& keyId).toNat = (keyId.toNat.testBit 14).toNat * 2 ^ 14 := by
    rw [UInt16.toNat_and, hbit, Nat.and_comm, Nat.and_two_pow]
  cases hkey : keyId.toNat.testBit 14 <;> simp [IS_FN_KEY, ← UInt16.toNat_inj, hnat, hkey]

def Plain (keyId : UInt16) : Prop := keyId.toNat < 2 ^ 14

instance (keyId : UInt16) : Decidable (Plain keyId) := inferInstanceAs (Decidable (_ < _))

theorem Plain.fnOf_inj {k k' : UInt16} (h : Plain k) (h' : Plain k') (heq : fnOf k = fnOf k') : k = k' := by
  have hnat := congrArg UInt16.toNat heq
  rw [fnOf_toNat, fnOf_toNat, Nat.mod_eq_of_lt h, Nat.mod_eq_of_lt h'] at hnat
  exact UInt16.toNat_inj.mp (by omega)

theorem not_plain_fnOf (k : UInt16) : ¬ Plain (fnOf k) := by
  rw [Plain, fnOf_toNat]
  omega

variable {k : UInt16}

theorem Plain.ne_fnOf (h : Plain k) (k' : UInt16) : fnOf k' ≠ k := by
  rintro rfl
  exact not_plain_fnOf k' h

theorem Plain.not_fn (h : Plain k) : IS_FN_KEY k = false := by
  rw [IS_FN_KEY_iff]
  exact Nat.testBit_lt_two_pow h

theorem isFn_fnOf (k : UInt16) : IS_FN_KEY (fnOf k) = true := by
  have hlt : k.toNat % 2 ^ 14 < 2 ^ 14 := Nat.mod_lt _ (by decide)
  rw [IS_FN_KEY_iff, fnOf_toNat, Nat.testBit_two_pow_add_eq, Nat.testBit_lt_two_pow hlt]
  rfl

theorem plain_KEY_ID (col row : Nat) : Plain (KEY_ID col row) := by
  rw [Plain, KEY_ID_toNat]
  omega

structure Config where
  switchKey : UInt16
  lockKey : UInt16
  maxActive : Nat
  fnKeys : List UInt16

/-- The static variables; the keys that are replaced are the first `fn_key_pressed_count` ones of
the array. -/
structure State where
  fnSwitchActive : Bool
  fnLockActive : Bool
  fnKeyPressed : List UInt16
  deriving DecidableEq, Repr

abbrev ButtonEvent := UInt16 × Bool

section Code

variable (cfg : Config)

def fnKeyEnabled (keyId : UInt16) : Bool := (searchByKey UInt16.toNat cfg.fnKeys keyId.toNat).isSome

def releaseFrom (keyId : UInt16) : List UInt16 → Bool → List UInt16 × Bool
  | [], keyWasRemapped => ([], keyWasRemapped)
  | key :: rest, true => (key :: (releaseFrom keyId rest true).1, (releaseFrom keyId rest true).2)
  | key :: rest, false =>
    if key = keyId then releaseFrom keyId rest true
    else (key :: (releaseFrom keyId rest false).1, (releaseFrom keyId rest false).2)

def buttonEventHandler (s : State) (event : ButtonEvent) : Notified State ButtonEvent :=
  if event.1 = cfg.switchKey then ⟨{ s with fnSwitchActive := event.2 }, [], true⟩
  else if event.1 = cfg.lockKey then
    ⟨if event.2 then { s with fnLockActive := !s.fnLockActive } else s, [], true⟩
  else if IS_FN_KEY event.1 then ⟨s, [], false⟩
  else if fnKeyEnabled cfg event.1 = false then ⟨s, [], false⟩
  else if event.2 ∧ s.fnSwitchActive ≠ s.fnLockActive then
    if s.fnKeyPressed.length = cfg.maxActive then ⟨s, [], false⟩
    else ⟨{ s with fnKeyPressed := s.fnKeyPressed ++ [event.1] }, [(fnOf event.1, true)], true⟩
  else if event.2 = false then
    let released := releaseFrom event.1 s.fnKeyPressed false
    if released.2 then ⟨{ s with fnKeyPressed := released.1 }, [(fnOf event.1, false)], true⟩
    else ⟨s, [], false⟩
  else ⟨s, [], false⟩

/-- The listeners of key events, and the events that reach the last one: the keys of the HID
reports. -/
def subs (_ : ButtonEvent) :
    List (List (State × List ButtonEvent → ButtonEvent → Notified (State × List ButtonEvent) ButtonEvent)) :=
  [[fun s event =>
    let notified := buttonEventHandler cfg s.1 event
    ⟨(notified.modules, s.2), notified.submitted, notified.consumed⟩], [],
   [fun s event => ⟨(s.1, s.2 ++ [event]), [], false⟩]]

end Code

theorem releaseFrom_true (l : List UInt16) : releaseFrom keyId l true = (l, true) := by
  induction l with
  | nil => rfl
  | cons key rest ih => simp [releaseFrom, ih]

theorem releaseFrom_eq (l : List UInt16) :
    releaseFrom keyId l false = (l.erase keyId, decide (keyId ∈ l)) := by
  induction l with
  | nil => rfl
  | cons key rest ih =>
    by_cases hkey : key = keyId
    · simp [releaseFrom, hkey, releaseFrom_true]
    · simp [releaseFrom, hkey, ih, Ne.symm hkey]

variable {cfg : Config} {phys : UInt16 → Bool} {s : State} {log waiting submitting : List ButtonEvent}

def Ordinary (cfg : Config) (k : UInt16) : Prop := Plain k ∧ k ≠ cfg.switchKey ∧ k ≠ cfg.lockKey

/-- The two keys with a meaning of their own are keys of the matrix. -/
def Config.Valid (cfg : Config) : Prop := Plain cfg.switchKey ∧ Plain cfg.lockKey

/-- For each key of the matrix, what waits of it leads from the state in which it was last handled
to the state it is in; and what waits of its function key leads from what the reports know to
whether it is replaced. -/
structure Replacing (cfg : Config) (phys : UInt16 → Bool) (s : State)
    (log waiting submitting : List ButtonEvent) :
    Prop where
  turn : InTurn log
  plain : ∀ k, Ordinary cfg k →
    Alternates (decide (k ∈ s.fnKeyPressed ∨ k ∈ pressedBy log)) (strokes k waiting) (phys k)
  fn : ∀ k, Ordinary cfg k →
    Alternates (decide (fnOf k ∈ pressedBy log)) (strokes (fnOf k) (waiting ++ submitting))
      (decide (k ∈ s.fnKeyPressed))
  known : ∀ e ∈ waiting, Plain e.1 ∨ ∃ k, Ordinary cfg k ∧ e.1 = fnOf k
  submitted : ∀ e ∈ submitting, ∃ k, Ordinary cfg k ∧ e.1 = fnOf k
  replaced : ∀ k ∈ s.fnKeyPressed, Ordinary cfg k ∧ fnKeyEnabled cfg k = true ∧ k ∉ pressedBy log
  distinct : s.fnKeyPressed.Nodup

theorem Replacing.start (cfg : Config) (fnLockActive : Bool) :
    Replacing cfg (fun _ => false) ⟨false, fnLockActive, []⟩ [] [] [] where
  turn := .nil
  plain := fun _ _ => by simp [Alternates, pressedBy]
  fn := fun _ _ => by simp [Alternates, pressedBy]
  known := by simp
  submitted := by simp
  replaced := by simp
  distinct := List.nodup_nil

theorem Replacing.submit (h : Replacing cfg phys s log waiting submitting) (hk : Plain k) :
    Replacing cfg (Function.update phys k (!phys k)) s log (waiting ++ [(k, !phys k)]) submitting :=
  { h with
    plain := fun k' hk' => by
      rw [strokes_append]
      by_cases heq : k' = k
      · subst heq
        rw [Function.update_self]
        simpa using (h.plain k' hk').snoc
      · rw [Function.update_of_ne heq]
        simpa [Ne.symm heq] using h.plain k' hk'
    fn := fun k' hk' => by
      have hne : k ≠ fnOf k' := (hk.ne_fnOf k').symm
      simpa [hne] using h.fn k' hk'
    known := fun e he => by
      rcases List.mem_append.mp he with he | he
      · exact h.known e he
      · exact Or.inl (List.mem_singleton.mp he ▸ hk) }

variable {e : ButtonEvent}

theorem Replacing.listener (h : Replacing cfg phys s log waiting (e :: submitting)) :
    Replacing cfg phys s log (waiting ++ [e]) submitting := by
  obtain ⟨k, hk, he⟩ := h.submitted e (List.mem_cons_self ..)
  exact { h with
    plain := fun k' hk' => by
      have hne : e.1 ≠ k' := by
        rw [he]
        exact hk'.1.ne_fnOf k
      simpa [hne] using h.plain k' hk'
    fn := fun k' hk' => by simpa using h.fn k' hk'
    known := fun e' he' => by
      rcases List.mem_append.mp he' with he' | he'
      · exact h.known e' he'
      · exact Or.inr ⟨k, hk, List.mem_singleton.mp he' ▸ he⟩
    submitted := fun e' he' => h.submitted e' (List.mem_cons_of_mem _ he') }

theorem Replacing.deliver (h : Replacing cfg phys s log (e :: waiting) [])
    (hturn : e.2 = true ↔ e.1 ∉ pressedBy log) (hfree : e.1 ∉ s.fnKeyPressed) :
    Replacing cfg phys s (log ++ [e]) waiting [] := by
  have hmem (k : UInt16) := mem_pressedBy_snoc h.turn e k
  refine { h with
    turn := h.turn.snoc hturn
    plain := fun k hk => ?_
    fn := fun k hk => ?_
    known := fun e' he' => h.known e' (List.mem_cons_of_mem _ he')
    replaced := fun k hk => ?_ }
  · have hplain := h.plain k hk
    rw [strokes_cons] at hplain
    by_cases heq : e.1 = k
    · subst heq
      rw [if_pos rfl] at hplain
      simpa [hmem, hfree] using hplain.2
    · rw [if_neg heq] at hplain
      simpa [hmem, Ne.symm heq] using hplain
  · have hfn := h.fn k hk
    rw [List.cons_append, strokes_cons] at hfn
    by_cases heq : e.1 = fnOf k
    · rw [if_pos heq] at hfn
      simpa [hmem, heq] using hfn.2
    · rw [if_neg heq] at hfn
      simpa [hmem, Ne.symm heq] using hfn
  · obtain ⟨hord, henabled, hnot⟩ := h.replaced k hk
    refine ⟨hord, henabled, ?_⟩
    have hne : k ≠ e.1 := by
      rintro rfl
      exact hfree hk
    simpa [hmem, hne] using hnot

theorem Replacing.consume (h : Replacing cfg phys s log (e :: waiting) []) (he : Plain e.1)
    (hspecial : ¬ Ordinary cfg e.1) {s' : State} (hs' : s'.fnKeyPressed = s.fnKeyPressed) :
    Replacing cfg phys s' log waiting [] where
  turn := h.turn
  plain := fun k hk => by
    have hne : e.1 ≠ k := by
      rintro rfl
      exact hspecial hk
    rw [hs']
    simpa [hne] using h.plain k hk
  fn := fun k hk => by
    have hne : e.1 ≠ fnOf k := (he.ne_fnOf k).symm
    rw [hs']
    simpa [hne] using h.fn k hk
  known := fun e' he' => h.known e' (List.mem_cons_of_mem _ he')
  submitted := h.submitted
  replaced := fun k hk => h.replaced k (hs' ▸ hk)
  distinct := hs' ▸ h.distinct

theorem Replacing.replace {p : Bool} (h : Replacing cfg phys s log ((k, p) :: waiting) [])
    (hk : Ordinary cfg k) (henabled : fnKeyEnabled cfg k = true) {s' : State}
    (hfree : k ∉ pressedBy log)
    (hs' : ∀ k', k' ∈ s'.fnKeyPressed ↔ if k' = k then p = true else k' ∈ s.fnKeyPressed)
    (hdistinct : s'.fnKeyPressed.Nodup) : Replacing cfg phys s' log waiting [(fnOf k, p)] where
  turn := h.turn
  plain := fun k' hk' => by
    have hplain := h.plain k' hk'
    rw [strokes_cons] at hplain
    by_cases heq : k = k'
    · subst heq
      rw [if_pos rfl] at hplain
      simpa [hs', hfree] using hplain.2
    · rw [if_neg heq] at hplain
      simpa [hs', Ne.symm heq] using hplain
  fn := fun k' hk' => by
    have hfn := h.fn k' hk'
    have hne : k ≠ fnOf k' := (hk.1.ne_fnOf k').symm
    rw [List.append_nil, strokes_cons, if_neg hne] at hfn
    rw [strokes_append, strokes_cons]
    by_cases heq : k' = k
    · subst heq
      have hplain := h.plain k' hk'
      rw [strokes_cons, if_pos rfl] at hplain
      have hp : decide (k' ∈ s.fnKeyPressed) = !p := by simpa [hfree] using hplain.head
      rw [hp] at hfn
      simpa [hs'] using hfn.snoc
    · have hne' : fnOf k ≠ fnOf k' := fun hfn => heq (hk'.1.fnOf_inj hk.1 hfn.symm)
      simpa [hs', heq, hne'] using hfn
  known := fun e' he' => h.known e' (List.mem_cons_of_mem _ he')
  submitted := fun e he => ⟨k, hk, congrArg Prod.fst (List.mem_singleton.mp he)⟩
  replaced := fun k' hk' => by
    rw [hs'] at hk'
    by_cases heq : k' = k
    · subst heq
      exact ⟨hk, henabled, hfree⟩
    · rw [if_neg heq] at hk'
      exact h.replaced k' hk'
  distinct := hdistinct

theorem notify_subs (cfg : Config) (s : State) (log : List ButtonEvent) (e : ButtonEvent) :
    notify (subs cfg e) (s, log) e =
      let notified := buttonEventHandler cfg s e
      ⟨(notified.modules, if notified.consumed then log else log ++ [e]), notified.submitted,
        notified.consumed⟩ := by
  cases hconsumed : (buttonEventHandler cfg s e).consumed <;> simp [notify, notifyFrom, subs, hconsumed]

theorem Replacing.head (h : Replacing cfg phys s log (e :: waiting) []) (he : Ordinary cfg e.1) :
    e.2 = true ↔ e.1 ∉ s.fnKeyPressed ∧ e.1 ∉ pressedBy log := by
  have hplain := h.plain e.1 he
  rw [strokes_cons, if_pos rfl] at hplain
  have hhead := hplain.head
  rw [← not_or]
  cases hp : e.2 <;> simpa [hp, or_iff_not_imp_left] using hhead

theorem Replacing.handle (hcfg : cfg.Valid) (h : Replacing cfg phys s log (e :: waiting) []) :
    Replacing cfg phys (notify (subs cfg e) (s, log) e).modules.1 (notify (subs cfg e) (s, log) e).modules.2
      waiting (notify (subs cfg e) (s, log) e).submitted := by
  rw [notify_subs]
  dsimp only
  rw [buttonEventHandler]
  by_cases hswitch : e.1 = cfg.switchKey
  · rw [if_pos hswitch]
    exact h.consume (hswitch ▸ hcfg.1) (fun ho => ho.2.1 hswitch) rfl
  by_cases hlock : e.1 = cfg.lockKey
  · rw [if_neg hswitch, if_pos hlock]
    exact h.consume (hlock ▸ hcfg.2) (fun ho => ho.2.2 hlock) (by cases e.2 <;> rfl)
  rw [if_neg hswitch, if_neg hlock]
  rcases h.known e (List.mem_cons_self ..) with hplain | ⟨k, hk, hfn⟩
  · -- A key of the matrix.
    have ho : Ordinary cfg e.1 := ⟨hplain, hswitch, hlock⟩
    have hhead := h.head ho
    rw [hplain.not_fn, if_neg (by simp)]
    by_cases henabled : fnKeyEnabled cfg e.1 = false
    · rw [if_pos henabled]
      have hfree : e.1 ∉ s.fnKeyPressed := by
        intro hmem
        rw [(h.replaced e.1 hmem).2.1] at henabled
        contradiction
      exact h.deliver (hhead.trans (and_iff_right hfree)) hfree
    · rw [if_neg henabled]
      rw [Bool.not_eq_false] at henabled
      obtain ⟨k, p⟩ := e
      cases p with
      | true =>
        obtain ⟨hfree, hnew⟩ := hhead.mp rfl
        by_cases hactive : s.fnSwitchActive = s.fnLockActive
        · simp only [hactive, ne_eq, not_true_eq_false, and_false, if_false, Bool.true_eq_false,
            Bool.false_eq_true]
          exact h.deliver (iff_of_true rfl hnew) hfree
        · simp only [ne_eq, hactive, not_false_eq_true, and_self, if_true]
          split
          · exact h.deliver (iff_of_true rfl hnew) hfree
          · apply h.replace ho henabled hnew
            · intro k'
              by_cases hk' : k' = k <;> simp [hk']
            · rw [List.nodup_append]
              refine ⟨h.distinct, List.nodup_singleton k, fun a ha b hb => ?_⟩
              rintro rfl
              exact hfree (List.mem_singleton.mp hb ▸ ha)
      | false =>
        simp only [Bool.false_eq_true, false_and, if_false, if_true, releaseFrom_eq, decide_eq_true_eq]
        by_cases hmem : k ∈ s.fnKeyPressed
        · rw [if_pos hmem]
          apply h.replace ho henabled (h.replaced k hmem).2.2
          · intro k'
            by_cases hk' : k' = k <;> simp [h.distinct.mem_erase_iff, hk']
          · exact h.distinct.erase k
        · rw [if_neg hmem]
          have hold : k ∈ pressedBy log := by
            by_contra hnew
            exact absurd (hhead.mpr ⟨hmem, hnew⟩) (by simp)
          exact h.deliver (iff_of_false (by simp) (not_not_intro hold)) hmem
  · -- A function key passes.
    have hhead := h.fn k hk
    rw [List.append_nil, strokes_cons, if_pos hfn, ← hfn] at hhead
    have hisFn : IS_FN_KEY e.1 = true := hfn ▸ isFn_fnOf k
    rw [if_pos hisFn]
    apply h.deliver
    · have := hhead.head
      cases hp : e.2 <;> simpa [hp] using this
    · intro hmem
      exact (h.replaced e.1 hmem).1.1.ne_fnOf k hfn.symm

end SdkNrf.Desktop.FnKeys
