import SdkNrf.Framework.Reachable
import SdkNrf.Agps.Bounds
import SdkNrf.Agps.Items

/-!
# What is sent for an encoding

When no elements are left from earlier messages, the walk over an encoding comes to its elements one by one.
-/

namespace SdkNrf.Agps

theorem readLe_congr {f g : Nat → UInt8} {a b : Nat} (width : Nat)
    (h : ∀ k < width, f (a + k) = g (b + k)) : readLe f a width = readLe g b width := by
  induction width generalizing a b with
  | zero => rfl
  | succ width ih =>
    have hrest : readLe f (a + 1) width = readLe g (b + 1) width := by
      apply ih
      intro k hk
      have hnext := h (k + 1) (by omega)
      rwa [Nat.add_assoc, Nat.add_assoc, Nat.add_comm 1 k]
    rw [readLe, readLe, hrest, show f a = g b from h 0 (Nat.succ_pos width)]

theorem readFields_congr {f g : Nat → UInt8} {a b : Nat} (fields : List Field)
    (h : ∀ k < sizeOfFields fields, f (a + k) = g (b + k)) :
    readFields f a fields = readFields g b fields := by
  induction fields generalizing a b with
  | nil => rfl
  | cons field fields ih =>
    have hsize : sizeOfFields (field :: fields) = field.width + sizeOfFields fields := by
      simp [sizeOfFields]
    have hfirst : readLe f a field.width = readLe g b field.width :=
      readLe_congr _ fun k hk => h k (by omega)
    have hrest : readFields f (a + field.width) fields = readFields g (b + field.width) fields := by
      apply ih
      intro k hk
      rw [Nat.add_assoc, Nat.add_assoc]
      exact h _ (by omega)
    rw [readFields, readFields, hfirst, hrest]

def bytesOf (block : List UInt8) : Nat → UInt8 := fun i => block.getD i 0

def lastTow (received : List (List UInt8)) (svId : Nat) : Option Tow :=
  ((received.filter fun b => svIdAt (bytesOf b) 0 = svId).getLast?).map fun b => towAt (bytesOf b) 0

/-- An array holds what has been received for every satellite. -/
def Carries (received : List (List UInt8)) (svTow : List Tow) : Prop :=
  ∀ i < maxSvTow, ∀ e ∈ lastTow received (i + 1), svTow[i]? = some e

instance (received : List (List UInt8)) (svTow : List Tow) : Decidable (Carries received svTow) := by
  unfold Carries
  infer_instance

/-- The elements other than TOWs have been sent in order, each with its members; a system clock
carries the TOWs received before it. -/
def Delivered : List (List UInt8) → List Item → List Sent → Prop
  | _, [], sent => sent = []
  | received, i :: rest, sent =>
    if i.type = .gpsTows then Delivered (received ++ [i.block]) rest sent
    else ∃ s ss, sent = s :: ss ∧ s.type = i.type ∧
      s.values = readFields (bytesOf i.block) 0 (fieldsOf i.type) ∧
      (i.type = .gpsSystemClock → Carries received s.svTow) ∧ Delivered received rest ss

def ArraysHold (c : Call) : Nat → List (List UInt8) → List Item → Prop
  | _, _, [] => True
  | off, received, i :: rest =>
    if i.type = .gpsTows then
      ArraysHold c (off + i.header.length + i.block.length) (received ++ [i.block]) rest
    else (i.type = .gpsSystemClock → Carries received (copyTows c.mem (off + i.header.length))) ∧
      ArraysHold c (off + i.header.length + i.block.length) received rest

instance decidableArraysHold (c : Call) (off : Nat) (received : List (List UInt8))
    (items : List Item) : Decidable (ArraysHold c off received items) := by
  induction items generalizing off received with
  | nil => exact inferInstanceAs (Decidable True)
  | cons i rest ih =>
    unfold ArraysHold
    infer_instance

section Walk

variable {c : Call} {s : Statics} {off : Nat} {i : Item} {rest : List Item}

def Holds (c : Call) (off : Nat) (items : List Item) : Prop :=
  c.buf.length = off + (encodeItems items).length ∧
    ∀ k < (encodeItems items).length, c.mem (off + k) = (encodeItems items).getD k 0

theorem Holds.mem_header (h : Holds c off (i :: rest)) {k : Nat} (hk : k < i.header.length) :
    c.mem (off + k) = i.header.getD k 0 := by
  rw [h.2 k (by simp; omega), encodeItems_cons, List.getD_append _ _ _ _ hk]

theorem Holds.mem_block (h : Holds c off (i :: rest)) {k : Nat} (hk : k < i.block.length) :
    c.mem (off + i.header.length + k) = bytesOf i.block k := by
  rw [Nat.add_assoc, h.2 _ (by simp; omega), encodeItems_cons,
    List.getD_append_right _ _ _ _ (by omega), Nat.add_sub_cancel_left, List.getD_append _ _ _ _ hk,
    bytesOf]

theorem Holds.tail (h : Holds c off (i :: rest)) :
    Holds c (off + i.header.length + i.block.length) rest := by
  have hlen := h.1
  rw [encodeItems_cons, List.length_append, List.length_append] at hlen
  refine ⟨by omega, fun k hk => ?_⟩
  have hmem := h.2 (i.header.length + i.block.length + k) (by simp; omega)
  rw [encodeItems_cons, List.getD_append_right _ _ _ _ (by omega),
    List.getD_append_right _ _ _ _ (by omega)] at hmem
  rw [Nat.add_assoc off, Nat.add_assoc off, hmem]
  congr 1
  omega

theorem next_of_continues (h : Holds c off (i :: rest)) (hs : Continues s (i :: rest)) :
    headerBefore s = i.header.length ∧
      handled (nextStatics s (c.from off)).elementType = some i.type ∧
      Continues (nextStatics s (c.from off)) rest := by
  obtain ⟨t, b, count⟩ := i
  obtain ⟨hhandled, -, hcount⟩ := hs
  have hcode : handled t.code = some t := by
    rw [handled, AgpsType.ofCode_code]
    simpa using hhandled
  cases count with
  | none =>
    have hleft : s.elementsLeftToProcess ≠ 0 := by
      have := hcount.1
      omega
    rw [headerBefore, nextStatics, if_neg hleft, if_neg hleft]
    refine ⟨rfl, ?_, hcount.2.2⟩
    rw [show s.elementType = t.code from hcount.2.1, hcode]
  | some n =>
    obtain ⟨hzero, hpos, hlt, hcontinues⟩ := hcount
    have hmem : ∀ k < 3, c.from off k =
        [UInt8.ofNat t.code, UInt8.ofNat n, UInt8.ofNat (n / 2 ^ 8)].getD k 0 := fun k hk =>
      h.mem_header hk
    have htype : (c.from off 0).toNat = t.code := by
      rw [hmem 0 (by omega)]
      have := t.code_lt
      simp [UInt8.toNat_ofNat']
      omega
    have hread : readLe (c.from off) 1 2 = n := by
      rw [readLe, readLe, readLe, hmem 1 (by omega), hmem 2 (by omega)]
      simp [UInt8.toNat_ofNat']
      omega
    rw [headerBefore, nextStatics, if_pos hzero, if_pos hzero, htype, hread]
    have hwrap : (n + (2 ^ 16 - 1)) % 2 ^ 16 = n - 1 := by omega
    rw [hwrap]
    exact ⟨rfl, hcode, hcontinues⟩

theorem sizeOfFields_le (t : AgpsType) (ht : elementLength t ≠ 0) :
    sizeOfFields (fieldsOf t) ≤ elementLength t := by
  cases t <;> first | exact absurd rfl ht | decide

theorem Holds.from_block (h : Holds c off (i :: rest))
    (hsize : sizeOfFields (fieldsOf i.type) ≤ i.block.length) :
    readFields c.mem (off + i.header.length) (fieldsOf i.type) =
      readFields (bytesOf i.block) 0 (fieldsOf i.type) := by
  apply readFields_congr
  intro k hk
  rw [Nat.zero_add]
  exact h.mem_block (by omega)

theorem agpsSendToModem_values (buf : Nat → UInt8) (t : AgpsType) (off : Nat) :
    (agpsSendToModem buf t off).values = readFields buf off (fieldsOf t) := by
  cases t <;> rfl

theorem agpsSendToModem_type (buf : Nat → UInt8) (t : AgpsType) (off : Nat) :
    (agpsSendToModem buf t off).type = t := by
  cases t <;> rfl

theorem loop_delivered {items : List Item} {fuel : Nat} {o : Outcome}
    {received : List (List UInt8)} (hfuel : items.length ≤ fuel) (h : Holds c off items)
    (hs : Continues o.statics items) (hmodem : ∀ k, c.modem k = 0)
    (harrays : ArraysHold c off received items) :
    (loop c fuel off o).statics.elementsLeftToProcess = 0 ∧
      ∃ ss, (loop c fuel off o).sent = o.sent ++ ss ∧ Delivered received items ss := by
  induction items generalizing fuel off o received with
  | nil =>
    have hend : loop c fuel off o = o := by
      cases fuel with
      | zero => rfl
      | succ fuel =>
        have hlen := h.1
        simp only [encodeItems, List.flatMap_nil, List.length_nil] at hlen
        rw [loop, if_neg (by omega)]
    rw [hend]
    exact ⟨hs, [], (List.append_nil _).symm, rfl⟩
  | cons i rest ih =>
    obtain ⟨fuel, rfl⟩ : ∃ n, fuel = n + 1 := ⟨fuel - 1, by simp at hfuel; omega⟩
    obtain ⟨hheader, hnext, hcontinues⟩ := next_of_continues h hs
    have hblock : i.block.length = elementLength i.type := hs.2.1
    have hlt : off < c.buf.length := by
      have hlen := h.1
      have hpos := elementLength_pos hnext
      rw [encodeItems_cons, List.length_append, List.length_append] at hlen
      omega
    have htail := h.tail
    have hvalues := h.from_block (hblock ▸ sizeOfFields_le i.type hs.1)
    rw [hblock] at htail
    rw [List.length_cons, Nat.add_le_add_iff_right] at hfuel
    rw [ArraysHold, hblock] at harrays
    -- Whatever has been recorded, the rest of the walk starts behind this element.
    have hrest : ∀ reads towWrites sent received', ArraysHold c
        (off + i.header.length + elementLength i.type) received' rest →
        (loop c fuel (off + i.header.length + elementLength i.type)
          ⟨nextStatics o.statics (c.from off), reads, towWrites, sent,
            o.err⟩).statics.elementsLeftToProcess = 0 ∧
        ∃ ss, (loop c fuel (off + i.header.length + elementLength i.type)
          ⟨nextStatics o.statics (c.from off), reads, towWrites, sent, o.err⟩).sent = sent ++ ss ∧
          Delivered received' rest ss := fun _ _ _ _ harr => ih hfuel htail hcontinues harr
    rw [loop]
    simp only [hlt, if_true, hnext, hheader]
    by_cases htow : i.type = .gpsTows
    · rw [if_pos htow] at harrays
      simp only [htow, if_true] at harrays hrest ⊢
      obtain ⟨hleft, ss, hsent, hdelivered⟩ := hrest _ _ _ _ harrays
      refine ⟨hleft, ss, hsent, ?_⟩
      rw [Delivered, if_pos htow]
      exact hdelivered
    · simp only [htow, if_false, hmodem, ne_eq, not_true_eq_false] at harrays ⊢
      obtain ⟨hleft, ss, hsent, hdelivered⟩ := hrest _ _ _ _ harrays.2
      refine ⟨hleft, agpsSendToModem c.mem i.type (off + i.header.length) :: ss, ?_, ?_⟩
      · rw [hsent, List.append_assoc]
        rfl
      · rw [Delivered, if_neg htow]
        refine ⟨_, ss, rfl, agpsSendToModem_type _ _ _, ?_, fun hclock => ?_, hdelivered⟩
        · rw [agpsSendToModem_values, hvalues]
        · rw [hclock]
          exact harrays.1 hclock

theorem holds_encode {groups : List Group} (hbuf : c.buf = encode groups) :
    Holds c 1 (itemsOf groups) := by
  have hencode : c.buf = 1 :: encodeItems (itemsOf groups) := hbuf.trans (encode_eq groups)
  refine ⟨by rw [hencode, List.length_cons, Nat.add_comm], fun k hk => ?_⟩
  rw [Call.mem, if_pos (by rw [hencode, List.length_cons]; omega), hencode, Nat.add_comm 1 k,
    List.getD_cons_succ]

theorem length_items_le {s : Statics} {items : List Item} (hs : Continues s items) :
    items.length ≤ (encodeItems items).length := by
  induction items generalizing s with
  | nil => exact Nat.zero_le _
  | cons i rest ih =>
    obtain ⟨hhandled, hblock, hcount⟩ := hs
    have hrest : rest.length ≤ (encodeItems rest).length := by
      cases hc : i.count with
      | none =>
        rw [hc] at hcount
        exact ih hcount.2.2
      | some n =>
        rw [hc] at hcount
        exact ih hcount.2.2.2
    rw [encodeItems_cons, List.length_append, List.length_append, List.length_cons]
    omega

theorem process_delivered {groups : List Group} (hbuf : c.buf = encode groups)
    (hleft : s.elementsLeftToProcess = 0) (hdevice : c.device = true) (hmodem : ∀ k, c.modem k = 0)
    (harrays : ArraysHold c 1 [] (itemsOf groups)) :
    (process s c).statics.elementsLeftToProcess = 0 ∧
      Delivered [] (itemsOf groups) (process s c).sent := by
  have hcontinues : Continues s (itemsOf groups) := by
    obtain ⟨left, type⟩ := s
    obtain rfl : left = 0 := hleft
    exact continues_itemsOf groups type
  have hfuel : (itemsOf groups).length ≤ c.buf.length := by
    rw [hbuf, encode_eq, List.length_cons]
    exact (length_items_le hcontinues).trans (Nat.le_succ _)
  rw [process, if_pos hdevice]
  obtain ⟨hend, ss, hsent, hdelivered⟩ :=
    loop_delivered (o := ⟨s, [(0, 1)], [], [], 0⟩) hfuel (holds_encode hbuf) hcontinues hmodem harrays
  refine ⟨hend, ?_⟩
  rw [hsent]
  exact hdelivered

end Walk

structure Session where
  statics : Statics
  calls : List (Call × Outcome)

def Session.step (s : Session) (c : Call) : Session :=
  ⟨(process s.statics c).statics, s.calls ++ [(c, process s.statics c)]⟩

def Session.init : Session := ⟨⟨0, 0⟩, []⟩

/-- A call with a framed buffer. An encoding comes when no elements are left, the modem takes all of
it, and the array behind every system clock holds the TOWs. -/
def Decodable (s : Session) (c : Call) : Prop :=
  c.buf ≠ [] ∧ (c.device = true → Framed c c.buf.length 1 0 s.statics) ∧
    ∀ groups, c.buf = encode groups → s.statics.elementsLeftToProcess = 0 ∧ c.device = true ∧
      (∀ k, c.modem k = 0) ∧ ArraysHold c 1 [] (itemsOf groups)

def Right (c : Call) (o : Outcome) : Prop :=
  InBounds c o ∧ ∀ groups, c.buf = encode groups → Delivered [] (itemsOf groups) o.sent

/-- In a sequence of such calls, all stay in their buffers and all encodings are delivered. -/
theorem agps_right {s : Session} (h : Reached Session.step Decodable Session.init s) :
    ∀ e ∈ s.calls, Right e.1 e.2 := by
  have hinit : ∀ e ∈ Session.init.calls, Right e.1 e.2 := fun e he => by cases he
  have hstep : ∀ (s : Session) (c : Call), (∀ e ∈ s.calls, Right e.1 e.2) → Decodable s c →
      ∀ e ∈ (s.step c).calls, Right e.1 e.2 := by
    intro s c hcalls ⟨hne, hframed, hencoding⟩
    rw [Session.step, List.forall_mem_append, List.forall_mem_singleton]
    refine ⟨hcalls, (process_inBounds_iff s.statics c).mpr ⟨hne, hframed⟩, fun groups hbuf => ?_⟩
    obtain ⟨hleft, hdevice, hmodem, harrays⟩ := hencoding groups hbuf
    exact (process_delivered hbuf hleft hdevice hmodem harrays).2
  exact h.invariant hinit hstep

theorem Decodable.of_encode {s : Session} {c : Call} {groups : List Group}
    (hbuf : c.buf = encode groups) (hframed : Framed c c.buf.length 1 0 s.statics)
    (hleft : s.statics.elementsLeftToProcess = 0) (hdevice : c.device = true)
    (hmodem : ∀ k, c.modem k = 0) (harrays : ArraysHold c 1 [] (itemsOf groups)) :
    Decodable s c := by
  refine ⟨?_, fun _ => hframed, fun groups' hbuf' => ⟨hleft, hdevice, hmodem, ?_⟩⟩
  · rw [hbuf]
    exact List.cons_ne_nil _ _
  · rwa [← itemsOf_unique (hbuf.symm.trans hbuf')]

def acceptingCall (groups : List Group) : Call := ⟨encode groups, fun _ => 0, true, fun _ => 0⟩

def towGroup : Group :=
  ⟨.gpsTows, [[1, 5, 0, 9]], by decide, by decide, by decide, by decide⟩

def clockGroup (behind : List UInt8) (h : behind.length = 4) : Group :=
  ⟨.gpsSystemClock, [[7, 0, 8, 0, 0, 0, 9, 0, 1, 0, 0, 0] ++ behind], by decide, by simp, by simp,
    by simp [h]; decide⟩

def ephemerisGroup : Group :=
  ⟨.ephemerides, [List.replicate 62 1, List.replicate 62 2], by decide, by decide, by decide,
    by decide⟩

def locationGroup : Group :=
  ⟨.location, [List.replicate 15 3], by decide, by decide, by decide, by decide⟩

def repeatedTow : List Group := [towGroup, clockGroup [1, 5, 0, 9] rfl, ephemerisGroup]

theorem repeatedTow_right : ∃ s, Reached Session.step Decodable Session.init s ∧
    s.calls.map (fun e => e.2.sent.map Sent.type) =
      [[.gpsSystemClock, .ephemerides, .ephemerides], [.location]] ∧
    ∀ e ∈ s.calls, Right e.1 e.2 := by
  have hfirst : Decodable Session.init (acceptingCall repeatedTow) :=
    .of_encode rfl (by decide +kernel) rfl rfl (fun _ => rfl) (by decide +kernel)
  have hsecond : Decodable (Session.init.step (acceptingCall repeatedTow))
      (acceptingCall [locationGroup]) :=
    .of_encode rfl (by decide +kernel) (by decide +kernel) rfl (fun _ => rfl) (by decide +kernel)
  have hreached := (Reached.start.next (acceptingCall repeatedTow) hfirst).next
    (acceptingCall [locationGroup]) hsecond
  exact ⟨_, hreached, by decide +kernel, agps_right hreached⟩

def lostTow : List Group := [towGroup, clockGroup [0, 0, 0, 0] rfl]

/-- The TOW is not sent with the clock, and the array is read behind the buffer. -/
theorem lostTow_not_right :
    ¬ InBounds (acceptingCall lostTow) (process ⟨0, 0⟩ (acceptingCall lostTow)) ∧
      ¬ Delivered [] (itemsOf lostTow) (process ⟨0, 0⟩ (acceptingCall lostTow)).sent := by
  constructor
  · rw [process_inBounds_iff]
    decide
  · have hsent : ((process ⟨0, 0⟩ (acceptingCall lostTow)).sent.map Sent.svTow) =
        [List.replicate maxSvTow ⟨0, 0⟩] := by decide
    have hitems : itemsOf lostTow = [⟨.gpsTows, [1, 5, 0, 9], some 1⟩,
        ⟨.gpsSystemClock, [7, 0, 8, 0, 0, 0, 9, 0, 1, 0, 0, 0, 0, 0, 0, 0], some 1⟩] := by
      decide
    rw [hitems, Delivered, if_pos rfl, Delivered, if_neg (by decide)]
    rintro ⟨s, ss, heq, -, -, hcarries, -⟩
    rw [heq, List.map_cons, List.cons.injEq] at hsent
    have hnot : ¬ Carries [[1, 5, 0, 9]] (List.replicate maxSvTow ⟨0, 0⟩) := by decide
    exact hnot (hsent.1 ▸ hcarries rfl)

end SdkNrf.Agps
