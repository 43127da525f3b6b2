import SdkNrf.Agps.Process

/-!
# What a call reads and writes

The message is walked from the element count that the last call has left.
-/

namespace SdkNrf.Agps

variable {c : Call} {o : Outcome}

/-- Every read is inside the buffer, and every TOW is stored in `sys_time.sv_tow`. -/
def InBounds (c : Call) (o : Outcome) : Prop :=
  (∀ r ∈ o.reads, r.1 + r.2 ≤ c.buf.length) ∧ ∀ i ∈ o.towWrites, 0 ≤ i ∧ i < maxSvTow

/-- From `parsedLen` on, after `sent` structures have been sent: the type and the count of a group,
the element and the array that is copied with it are in the buffer, and satellites have a number from
1 to 32. -/
def Framed (c : Call) : Nat → Nat → Nat → Statics → Prop
  | 0, _, _, _ => True
  | fuel + 1, parsedLen, sent, s => parsedLen < c.buf.length →
    parsedLen + headerBefore s ≤ c.buf.length ∧
    match handled (nextStatics s (c.from parsedLen)).elementType with
    | none => True
    | some t =>
      parsedLen + headerBefore s + readLength c.mem t (parsedLen + headerBefore s) ≤ c.buf.length ∧
      if t = .gpsTows then
        1 ≤ svIdAt c.mem (parsedLen + headerBefore s) ∧
        svIdAt c.mem (parsedLen + headerBefore s) ≤ maxSvTow ∧
        Framed c fuel (parsedLen + headerBefore s + elementLength t) sent
          (nextStatics s (c.from parsedLen))
      else c.modem sent = 0 →
        Framed c fuel (parsedLen + headerBefore s + elementLength t) (sent + 1)
          (nextStatics s (c.from parsedLen))

instance decidableFramed (c : Call) (fuel parsedLen sent : Nat) (s : Statics) :
    Decidable (Framed c fuel parsedLen sent s) := by
  induction fuel generalizing parsedLen sent s with
  | zero => exact inferInstanceAs (Decidable True)
  | succ fuel ih =>
    unfold Framed
    cases handled (nextStatics s (c.from parsedLen)).elementType with
    | none => infer_instance
    | some t => infer_instance

theorem elementLength_pos {code : Nat} {t : AgpsType} (h : handled code = some t) :
    0 < elementLength t := by
  rw [handled, Option.filter_eq_some_iff, decide_eq_true_iff] at h
  omega

theorem inBounds_iff (c : Call) (statics : Statics) (reads : List (Nat × Nat)) (r : Nat × Nat)
    (towWrites : List Int) (sent : List Sent) (err : Int) :
    InBounds c ⟨statics, reads ++ [r], towWrites, sent, err⟩ ↔
      InBounds c ⟨statics, reads, towWrites, sent, err⟩ ∧ r.1 + r.2 ≤ c.buf.length := by
  simp only [InBounds, List.forall_mem_append, List.forall_mem_singleton]
  tauto

theorem inBounds_tow_iff (c : Call) (statics : Statics) (reads : List (Nat × Nat))
    (towWrites : List Int) (svId : Nat) (sent : List Sent) (err : Int) :
    InBounds c ⟨statics, reads, towWrites ++ [(svId : Int) - 1], sent, err⟩ ↔
      InBounds c ⟨statics, reads, towWrites, sent, err⟩ ∧ 1 ≤ svId ∧ svId ≤ maxSvTow := by
  have hrange : (0 ≤ (svId : Int) - 1 ∧ (svId : Int) - 1 < maxSvTow) ↔
      1 ≤ svId ∧ svId ≤ maxSvTow := by omega
  simp only [InBounds, List.forall_mem_append, List.forall_mem_singleton, hrange]
  tauto

theorem inBounds_congr (c : Call) (statics statics' : Statics) (reads : List (Nat × Nat))
    (towWrites : List Int) (sent sent' : List Sent) (err err' : Int) :
    InBounds c ⟨statics, reads, towWrites, sent, err⟩ ↔
      InBounds c ⟨statics', reads, towWrites, sent', err'⟩ := Iff.rfl

theorem loop_inBounds_iff (fuel parsedLen : Nat) (o : Outcome) :
    InBounds c (loop c fuel parsedLen o) ↔
      InBounds c o ∧ Framed c fuel parsedLen o.sent.length o.statics := by
  induction fuel generalizing parsedLen o with
  | zero => simp [loop, Framed]
  | succ fuel ih =>
    rw [loop, Framed]
    by_cases hlt : parsedLen < c.buf.length
    · have hsame : ∀ statics sent err, InBounds c ⟨statics, o.reads, o.towWrites, sent, err⟩ ↔
          InBounds c o := fun statics sent err => inBounds_congr c _ _ _ _ _ _ _ _
      simp only [hlt, if_true, forall_true_left]
      cases hnext : handled (nextStatics o.statics (c.from parsedLen)).elementType with
      | none => simp only [inBounds_iff, hsame, and_true]
      | some t =>
        by_cases htow : t = .gpsTows
        · simp only [htow, if_true, ih, inBounds_iff, inBounds_tow_iff, hsame, and_assoc]
        · simp only [htow, if_false]
          by_cases hmodem : c.modem o.sent.length = 0
          · simp only [hmodem, ne_eq, not_true_eq_false, if_false, ih, inBounds_iff, hsame,
              List.length_append, List.length_singleton, forall_true_left, and_assoc]
          · simp only [hmodem, ne_eq, not_false_eq_true, if_true, inBounds_iff, hsame,
              false_imp_iff, and_true, and_assoc]
    · simp [hlt]

theorem process_inBounds_iff (s : Statics) (c : Call) :
    InBounds c (process s c) ↔
      c.buf ≠ [] ∧ (c.device = true → Framed c c.buf.length 1 0 s) := by
  have hlen : 1 ≤ c.buf.length ↔ c.buf ≠ [] := List.length_pos_iff
  rw [process]
  cases c.device with
  | false => simp [InBounds, hlen]
  | true =>
    simp only [if_true, loop_inBounds_iff, forall_true_left, List.length_nil]
    simp [InBounds, hlen]

end SdkNrf.Agps
