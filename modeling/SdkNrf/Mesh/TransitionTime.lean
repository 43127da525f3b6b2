import SdkNrf.Framework.Words

/-!
# Transition times

A transition time is encoded in one byte: a number of steps and one of four resolutions.
-/

namespace SdkNrf.Mesh

def sysForeverMs : Int := -1

def transitionTimeUnknown : Nat := 0x3F

def modelTransitionRes : Nat → Nat
  | 0 => 100
  | 1 => 1000
  | 2 => 10000
  | _ => 600000

def transitionLimits : Nat → Int
  | 0 => 6600
  | 1 => 66000
  | 2 => 910000
  | _ => 37200000

def modelTransitionDecode (encodedTransition : UInt8) : Int :=
  let steps := (encodedTransition &&& 0x3F).toNat
  let res := (encodedTransition >>> 6).toNat
  if steps = transitionTimeUnknown then sysForeverMs else (modelTransitionRes res * steps : Nat)

/-- The steps of a time in a resolution. The sum is unsigned, and the quotient is cut to a byte
before it is limited. -/
def transitionSteps (transitionTime : Int) (res : Nat) : Nat :=
  let steps := (toUnsigned 32 (transitionTime + (res / 2 : Nat))).toNat / res % 256
  min 0x3E (max 1 steps)

def modelTransitionEncode (transitionTime : Int) : UInt8 :=
  if transitionTime = 0 then 0
  else if transitionTime = sysForeverMs then .ofNat transitionTimeUnknown
  else
    match (List.range 4).find? fun i => transitionTime ≤ transitionLimits i with
    | some i => .ofNat (i <<< 6 ||| transitionSteps transitionTime (modelTransitionRes i))
    | none => .ofNat transitionTimeUnknown

variable (encodedTransition : UInt8)

theorem modelTransitionDecode_eq :
    modelTransitionDecode encodedTransition = if encodedTransition.toNat % 64 = 63 then (-1 : Int)
      else (modelTransitionRes (encodedTransition.toNat / 64)
        * (encodedTransition.toNat % 64) : Nat) := by
  have hsteps : (encodedTransition &&& 0x3F).toNat = encodedTransition.toNat % 64 :=
    Nat.and_two_pow_sub_one_eq_mod _ 6
  have hres : (encodedTransition >>> 6).toNat = encodedTransition.toNat / 64 :=
    Nat.shiftRight_eq_div_pow _ 6
  simp only [modelTransitionDecode, hsteps, hres, transitionTimeUnknown, sysForeverMs]

theorem decode_ofNat {i steps : Nat} (hi : i < 4) (hsteps : steps < 63) :
    modelTransitionDecode (.ofNat (i <<< 6 ||| steps)) = (modelTransitionRes i * steps : Nat) := by
  have hword : i <<< 6 ||| steps = i * 64 + steps := by
    rw [← Nat.shiftLeft_add_eq_or_of_lt (by omega), Nat.shiftLeft_eq]
  have hbyte : (UInt8.ofNat (i <<< 6 ||| steps)).toNat = i * 64 + steps := by
    rw [hword, UInt8.toNat_ofNat']
    omega
  have hmod : (i * 64 + steps) % 64 = steps := by omega
  have hdiv : (i * 64 + steps) / 64 = i := by omega
  rw [modelTransitionDecode_eq, hbyte, hmod, hdiv, if_neg (by omega)]

def resolutionOf (t : Int) : Nat :=
  if t ≤ 6600 then 0 else if t ≤ 66000 then 1 else if t ≤ 910000 then 2 else 3

variable {t : Int}

theorem find_limit (h : t ≤ 37200000) :
    (List.range 4).find? (fun i => t ≤ transitionLimits i) = some (resolutionOf t) := by
  have hrange : List.range 4 = [0, 1, 2, 3] := rfl
  rw [hrange, resolutionOf]
  split_ifs with h0 h1 h2
  · simp [transitionLimits, h0]
  · simp [transitionLimits, h0, h1]
  · simp [transitionLimits, h0, h1, h2]
  · simp [transitionLimits, h0, h1, h2, h]

theorem decode_encode (hpos : 0 < t) (hle : t ≤ 37200000) :
    modelTransitionDecode (modelTransitionEncode t)
      = (modelTransitionRes (resolutionOf t)
        * transitionSteps t (modelTransitionRes (resolutionOf t)) : Nat) := by
  rw [modelTransitionEncode, if_neg (by omega), if_neg (by rw [sysForeverMs]; omega), find_limit hle]
  apply decode_ofNat
  · rw [resolutionOf]
    split_ifs <;> omega
  · rw [transitionSteps]
    omega

theorem transitionSteps_eq (hpos : 0 < t) (hle : t ≤ 37200000) :
    (transitionSteps t (modelTransitionRes (resolutionOf t)) : Int)
      = min 62 (max 1 ((t + (modelTransitionRes (resolutionOf t) / 2 : Nat))
        / (modelTransitionRes (resolutionOf t) : Nat))) := by
  simp only [transitionSteps, toUnsigned, resolutionOf]
  split_ifs <;> simp only [modelTransitionRes] <;> omega

def Representable (time : Int) : Prop :=
  ∃ res steps : Nat, res < 4 ∧ 1 ≤ steps ∧ steps ≤ 62 ∧ time = (modelTransitionRes res * steps : Nat)

theorem decode_encode_cases (hpos : 0 < t) (hle : t ≤ 37200000) :
    t ≤ 6600 ∧ modelTransitionDecode (modelTransitionEncode t)
        = 100 * min 62 (max 1 ((t + 50) / 100))
      ∨ 6600 < t ∧ t ≤ 66000 ∧ modelTransitionDecode (modelTransitionEncode t)
        = 1000 * min 62 ((t + 500) / 1000)
      ∨ 66000 < t ∧ t ≤ 910000 ∧ modelTransitionDecode (modelTransitionEncode t)
        = 10000 * min 62 ((t + 5000) / 10000)
      ∨ 910000 < t ∧ modelTransitionDecode (modelTransitionEncode t)
        = 600000 * min 62 ((t + 300000) / 600000) := by
  have hsteps := transitionSteps_eq hpos hle
  have hback := decode_encode hpos hle
  rw [Nat.cast_mul, hsteps] at hback
  simp only [resolutionOf] at hback
  split_ifs at hback with h0 h1 h2 <;> simp only [modelTransitionRes] at hback
  · exact .inl ⟨h0, by omega⟩
  · exact .inr (.inl ⟨by omega, h1, by omega⟩)
  · exact .inr (.inr (.inl ⟨by omega, h2, by omega⟩))
  · exact .inr (.inr (.inr ⟨by omega, by omega⟩))

theorem representable_decode_encode (hpos : 0 < t) (hle : t ≤ 37200000) :
    Representable (modelTransitionDecode (modelTransitionEncode t)) := by
  refine ⟨resolutionOf t, transitionSteps t (modelTransitionRes (resolutionOf t)), ?_, ?_, ?_,
    decode_encode hpos hle⟩
  · rw [resolutionOf]
    split_ifs <;> omega
  · rw [transitionSteps]
    omega
  · rw [transitionSteps]
    omega

theorem decode_encode_nearest {t time : Int} (hpos : 0 < t) (hle : t ≤ 37200000)
    (htime : Representable time) :
    (modelTransitionDecode (modelTransitionEncode t) - t).natAbs ≤ (time - t).natAbs := by
  obtain ⟨res, steps, hres, hone, hmax, rfl⟩ := htime
  have hcases := decode_encode_cases hpos hle
  interval_cases res <;> simp only [modelTransitionRes] <;> omega

theorem decode_encode_mono {t₁ t₂ : Int} (hpos : 0 < t₁) (hle : t₁ ≤ t₂) (hmax : t₂ ≤ 37200000) :
    modelTransitionDecode (modelTransitionEncode t₁)
      ≤ modelTransitionDecode (modelTransitionEncode t₂) := by
  have hfirst := decode_encode_cases hpos (hle.trans hmax)
  have hsecond := decode_encode_cases (hpos.trans_le hle) hmax
  omega

theorem Representable.mem {time : Int} (h : Representable time) : 0 < time ∧ time ≤ 37200000 := by
  obtain ⟨res, steps, hres, hone, hmax, rfl⟩ := h
  interval_cases res <;> simp only [modelTransitionRes] <;> omega

theorem decode_cases :
    modelTransitionDecode encodedTransition = sysForeverMs
      ∨ modelTransitionDecode encodedTransition = 0
      ∨ Representable (modelTransitionDecode encodedTransition) := by
  have hlt := encodedTransition.toNat_lt
  rw [modelTransitionDecode_eq]
  split
  · exact .inl rfl
  · next hsteps =>
    by_cases hzero : encodedTransition.toNat % 64 = 0
    · exact .inr (.inl (by simp [hzero]))
    · exact .inr (.inr ⟨_, _, by omega, by omega, by omega, rfl⟩)

theorem decode_encode_decode :
    modelTransitionDecode (modelTransitionEncode (modelTransitionDecode encodedTransition))
      = modelTransitionDecode encodedTransition := by
  rcases decode_cases encodedTransition with hforever | hzero | htime
  · rw [hforever]
    decide
  · rw [hzero]
    decide
  · have hmem := htime.mem
    have hnearest := decode_encode_nearest hmem.1 hmem.2 htime
    omega

/-- A time comes back as the nearest one that can be encoded, times come back in order, and the
times that bytes stand for come back unchanged. -/
structure EncodesNearest : Prop where
  representable : ∀ t, 1 ≤ t → t ≤ 37200000 →
    Representable (modelTransitionDecode (modelTransitionEncode t))
  nearest : ∀ t, 1 ≤ t → t ≤ 37200000 → ∀ time, Representable time →
    (modelTransitionDecode (modelTransitionEncode t) - t).natAbs ≤ (time - t).natAbs
  mono : ∀ t₁ t₂, 1 ≤ t₁ → t₁ ≤ t₂ → t₂ ≤ 37200000 →
    modelTransitionDecode (modelTransitionEncode t₁)
      ≤ modelTransitionDecode (modelTransitionEncode t₂)
  bytes : ∀ b : UInt8, modelTransitionDecode (modelTransitionEncode (modelTransitionDecode b))
    = modelTransitionDecode b

/-- Times are encoded as the nearest representable ones, in their order, and bytes come back. -/
theorem transition_encodesNearest : EncodesNearest where
  representable _ hpos hle := representable_decode_encode hpos hle
  nearest _ hpos hle _ htime := decode_encode_nearest hpos hle htime
  mono _ _ hpos hle hmax := decode_encode_mono hpos hle hmax
  bytes := decode_encode_decode

end SdkNrf.Mesh
