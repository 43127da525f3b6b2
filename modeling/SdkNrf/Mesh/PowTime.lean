import Mathlib

/-!
# The time code of the mesh sensors

A time is sent as the exponent of a power of 1.1, with 64 for one second.
-/

namespace SdkNrf.Mesh

/-- `powtime_lookup`, in nanoseconds. -/
def powtimeLookup : List Nat :=
  [2243, 10307, 47362, 217629, 1000000, 4594972, 21113776, 97017233, 445791568, 2048400214,
    9412343651, 43249464815, 198730122503, 913159544478, 4195943439113, 19280246755010]

def powtimeMul : List Nat :=
  [100000, 110000, 121000, 133100, 146410, 161051, 177156, 194871, 214358, 235794, 259374, 285311,
    313842, 345227, 379749, 417724]

/-- The index of `seed` after the loop over `powtime_lookup`: the one below the first entry above the
time, and the initial one when the loop ends without `break`. -/
def powtimeSeed (rawNs : Nat) : Nat :=
  ((List.range' 1 15).find? fun i => rawNs < powtimeLookup.getD i 0).elim 0 (· - 1)

def powtimeProduct (seed mul : Nat) : Nat :=
  powtimeLookup.getD seed 0 * powtimeMul.getD mul 0 / 100000

/-- The counter after the loop over `powtime_mul`. -/
def powtimeCount (rawNs seed : Nat) : Nat :=
  ((List.range powtimeMul.length).find? fun i => rawNs < powtimeProduct seed i).getD
    powtimeMul.length

/-- `sensor_powtime_encode`, with the multiplication in `uint64_t`. -/
def sensorPowtimeEncode (raw : Nat) : Nat :=
  if raw = 0 then 0
  else
    let rawNs := raw * 1000 % 2 ^ 64
    if rawNs < powtimeLookup.getD 0 0 then 1
    else
      let seed := powtimeSeed rawNs
      (powtimeMul.length * seed + powtimeCount rawNs seed - 1) % 2 ^ 8

def sensorPowtimeDecodeNs (val : Nat) : Nat :=
  if val = 0 then 0 else powtimeProduct (val / powtimeMul.length) (val % powtimeMul.length)

theorem sensorPowtimeDecodeNs_lt_succ :
    ∀ e < 255, sensorPowtimeDecodeNs e < sensorPowtimeDecodeNs (e + 1) := by
  decide +kernel

theorem sensorPowtimeDecodeNs_strictMonoOn : StrictMonoOn sensorPowtimeDecodeNs (Set.Iio 256) := by
  have hstep (a n : Nat) (hlt : a + (n + 1) < 256) :
      sensorPowtimeDecodeNs a < sensorPowtimeDecodeNs (a + (n + 1)) := by
    induction n with
    | zero => exact sensorPowtimeDecodeNs_lt_succ a (by omega)
    | succ n ih =>
      apply (ih (by omega)).trans
      exact sensorPowtimeDecodeNs_lt_succ (a + (n + 1)) (by omega)
  intro a _ b hb hlt
  obtain ⟨n, rfl⟩ := Nat.exists_eq_add_of_lt hlt
  exact hstep a n hb

theorem sensorPowtimeDecodeNs_lt_iff {a b : Nat} (ha : a < 256) (hb : b < 256) :
    sensorPowtimeDecodeNs a < sensorPowtimeDecodeNs b ↔ a < b :=
  sensorPowtimeDecodeNs_strictMonoOn.lt_iff_lt ha hb

theorem sensorPowtimeDecodeNs_of_digits :
    ∀ seed < 16, ∀ mul < 16, 0 < 16 * seed + mul →
      sensorPowtimeDecodeNs (16 * seed + mul) = powtimeProduct seed mul := by
  decide

theorem sensorPowtimeDecodeNs_entry :
    ∀ seed < 16, 0 < seed → sensorPowtimeDecodeNs (16 * seed) = powtimeLookup.getD seed 0 := by
  decide

theorem powtimeLookup_first : powtimeLookup.getD 0 0 = 2243 := rfl

theorem powtimeLookup_second : powtimeLookup.getD 1 0 = 10307 := rfl

theorem powtimeLookup_last : powtimeLookup.getD 15 0 = 19280246755010 := rfl

theorem powtimeProduct_zero : ∀ seed < 16, powtimeProduct seed 0 = powtimeLookup.getD seed 0 := by
  decide

section Search

variable {rawNs seed : Nat}

theorem powtimeSeed_of_ge (h : powtimeLookup.getD 15 0 ≤ rawNs) : powtimeSeed rawNs = 0 := by
  have hle : ∀ i ∈ List.range' 1 15, powtimeLookup.getD i 0 ≤ powtimeLookup.getD 15 0 := by decide
  have hnone : (List.range' 1 15).find? (fun i => rawNs < powtimeLookup.getD i 0) = none := by
    rw [List.find?_eq_none]
    intro i hi
    simpa using (hle i hi).trans h
  rw [powtimeSeed, hnone, Option.elim_none]

theorem powtimeSeed_bounds (hge : powtimeLookup.getD 0 0 ≤ rawNs)
    (hlt : rawNs < powtimeLookup.getD 15 0) :
    powtimeSeed rawNs < 15 ∧ powtimeLookup.getD (powtimeSeed rawNs) 0 ≤ rawNs ∧
      rawNs < powtimeLookup.getD (powtimeSeed rawNs + 1) 0 := by
  unfold powtimeSeed
  cases hfind : (List.range' 1 15).find? (fun i => rawNs < powtimeLookup.getD i 0) with
  | none =>
    rw [List.find?_eq_none] at hfind
    exact absurd (decide_eq_true hlt) (hfind 15 (by decide))
  | some i =>
    rw [List.find?_range'_eq_some] at hfind
    obtain ⟨habove, hmem, hbelow⟩ := hfind
    rw [List.mem_range'_1] at hmem
    rw [Option.elim_some, Nat.sub_add_cancel hmem.1]
    refine ⟨by omega, ?_, of_decide_eq_true habove⟩
    by_cases hone : i = 1
    · rw [hone]
      exact hge
    · simpa using hbelow (i - 1) (by omega) (by omega)

theorem powtimeCount_le (rawNs seed : Nat) : powtimeCount rawNs seed ≤ 16 := by
  unfold powtimeCount
  cases hfind : (List.range powtimeMul.length).find? (fun i => rawNs < powtimeProduct seed i) with
  | none => exact Nat.le_refl 16
  | some i =>
    rw [List.find?_range_eq_some] at hfind
    exact (List.mem_range.mp hfind.2.1).le

theorem lt_powtimeProduct_count (h : powtimeCount rawNs seed < 16) :
    rawNs < powtimeProduct seed (powtimeCount rawNs seed) := by
  unfold powtimeCount at h ⊢
  cases hfind : (List.range powtimeMul.length).find? (fun i => rawNs < powtimeProduct seed i) with
  | none =>
    rw [hfind] at h
    exact absurd h (by decide)
  | some i =>
    rw [List.find?_range_eq_some] at hfind
    exact of_decide_eq_true hfind.1

theorem powtimeProduct_le_of_lt_count {mul : Nat} (h : mul < powtimeCount rawNs seed) :
    powtimeProduct seed mul ≤ rawNs := by
  unfold powtimeCount at h
  cases hfind : (List.range powtimeMul.length).find? (fun i => rawNs < powtimeProduct seed i) with
  | none =>
    rw [hfind] at h
    rw [List.find?_eq_none] at hfind
    simpa using hfind mul (List.mem_range.mpr h)
  | some i =>
    rw [hfind] at h
    rw [List.find?_range_eq_some] at hfind
    simpa using hfind.2.2 mul h

end Search

section Encode

variable {raw : Nat}

theorem sensorPowtimeEncode_of_lt (hpos : raw ≠ 0) (hlt : 1000 * raw < powtimeLookup.getD 0 0) :
    sensorPowtimeEncode raw = 1 := by
  have hfirst := powtimeLookup_first
  have hmod : raw * 1000 % 2 ^ 64 = 1000 * raw := by
    rw [Nat.mul_comm, Nat.mod_eq_of_lt (by omega)]
  unfold sensorPowtimeEncode
  rw [if_neg hpos]
  simp only [hmod, if_pos hlt]

theorem sensorPowtimeDecodeNs_encode (hge : powtimeLookup.getD 0 0 ≤ 1000 * raw)
    (hlt : 1000 * raw < powtimeLookup.getD 15 0) :
    sensorPowtimeEncode raw < 240 ∧
      sensorPowtimeDecodeNs (sensorPowtimeEncode raw) ≤ 1000 * raw ∧
      1000 * raw < sensorPowtimeDecodeNs (sensorPowtimeEncode raw + 1) := by
  have hfirst := powtimeLookup_first
  have hlast := powtimeLookup_last
  have hlength : powtimeMul.length = 16 := rfl
  have hmod : raw * 1000 % 2 ^ 64 = 1000 * raw := by
    rw [Nat.mul_comm, Nat.mod_eq_of_lt (by omega)]
  obtain ⟨hseed, hentry, hnext⟩ := powtimeSeed_bounds hge hlt
  have hpos : 0 < powtimeCount (1000 * raw) (powtimeSeed (1000 * raw)) := by
    by_contra hzero
    have hcount := Nat.eq_zero_of_not_pos hzero
    have habove : 1000 * raw < powtimeProduct (powtimeSeed (1000 * raw))
        (powtimeCount (1000 * raw) (powtimeSeed (1000 * raw))) :=
      lt_powtimeProduct_count (by omega)
    rw [hcount, powtimeProduct_zero _ (by omega)] at habove
    omega
  have hle := powtimeCount_le (1000 * raw) (powtimeSeed (1000 * raw))
  have hencode : sensorPowtimeEncode raw = 16 * powtimeSeed (1000 * raw) +
      (powtimeCount (1000 * raw) (powtimeSeed (1000 * raw)) - 1) := by
    unfold sensorPowtimeEncode
    rw [if_neg (by omega)]
    simp only [hmod, hlength]
    rw [if_neg (by omega), Nat.mod_eq_of_lt (by omega), Nat.add_sub_assoc hpos]
  have hbelow := powtimeProduct_le_of_lt_count (Nat.sub_one_lt_of_lt hpos)
  have habove (h : powtimeCount (1000 * raw) (powtimeSeed (1000 * raw)) < 16) :=
    lt_powtimeProduct_count h
  rw [hencode]
  generalize powtimeSeed (1000 * raw) = seed at *
  generalize powtimeCount (1000 * raw) seed = count at *
  refine ⟨by omega, ?_, ?_⟩
  · by_cases hzero : 16 * seed + (count - 1) = 0
    · rw [hzero]
      exact Nat.zero_le _
    · rw [sensorPowtimeDecodeNs_of_digits seed (by omega) _ (by omega) (by omega)]
      exact hbelow
  · by_cases hall : count = 16
    · have hcarry : 16 * seed + (count - 1) + 1 = 16 * (seed + 1) := by omega
      rw [hcarry, sensorPowtimeDecodeNs_entry _ (by omega) (by omega)]
      exact hnext
    · have hdigits : 16 * seed + (count - 1) + 1 = 16 * seed + count := by omega
      rw [hdigits, sensorPowtimeDecodeNs_of_digits seed (by omega) _ (by omega) (by omega)]
      exact habove (by omega)

theorem sensorPowtimeEncode_of_ge (hge : powtimeLookup.getD 15 0 ≤ 1000 * raw)
    (hfits : 1000 * raw < 2 ^ 64) : sensorPowtimeEncode raw = 15 := by
  have hfirst := powtimeLookup_first
  have hlast := powtimeLookup_last
  have hlength : powtimeMul.length = 16 := rfl
  have hmod : raw * 1000 % 2 ^ 64 = 1000 * raw := by
    rw [Nat.mul_comm, Nat.mod_eq_of_lt hfits]
  have hcount : powtimeCount (1000 * raw) 0 = 16 := by
    have hle := powtimeCount_le (1000 * raw) 0
    by_contra hne
    have hlt : powtimeCount (1000 * raw) 0 < 16 := by omega
    have habove := lt_powtimeProduct_count hlt
    have hsmall : ∀ mul < 16, powtimeProduct 0 mul ≤ 9369 := by decide
    have := hsmall _ hlt
    omega
  unfold sensorPowtimeEncode
  rw [if_neg (by omega)]
  simp only [hmod, hlength]
  rw [if_neg (by omega), powtimeSeed_of_ge hge, hcount]
  rfl

theorem sensorPowtimeEncode_le_of_le {raw' : Nat} (hge : powtimeLookup.getD 0 0 ≤ 1000 * raw)
    (hle : raw ≤ raw') (hlt : 1000 * raw' < powtimeLookup.getD 15 0) :
    sensorPowtimeEncode raw ≤ sensorPowtimeEncode raw' := by
  obtain ⟨hcode, hbelow, -⟩ := sensorPowtimeDecodeNs_encode hge (by omega)
  have hge' : powtimeLookup.getD 0 0 ≤ 1000 * raw' := by omega
  obtain ⟨hcode', -, habove⟩ := sensorPowtimeDecodeNs_encode hge' hlt
  have hdecode : sensorPowtimeDecodeNs (sensorPowtimeEncode raw) <
      sensorPowtimeDecodeNs (sensorPowtimeEncode raw' + 1) := by omega
  rw [sensorPowtimeDecodeNs_lt_iff (by omega) (by omega)] at hdecode
  omega

theorem sensorPowtimeEncode_lt_iff {seed : Nat} (hge : powtimeLookup.getD 0 0 ≤ 1000 * raw)
    (hlt : 1000 * raw < powtimeLookup.getD 15 0) (hpos : 0 < seed) (hseed : seed < 16) :
    sensorPowtimeEncode raw < 16 * seed ↔ 1000 * raw < powtimeLookup.getD seed 0 := by
  obtain ⟨hcode, hbelow, habove⟩ := sensorPowtimeDecodeNs_encode hge hlt
  rw [← sensorPowtimeDecodeNs_entry seed hseed hpos]
  constructor
  · intro hless
    by_contra hge'
    have hnext := (sensorPowtimeDecodeNs_lt_iff (by omega) (by omega)).mp
      ((Nat.not_lt.mp hge').trans_lt habove)
    omega
  · intro hless
    exact (sensorPowtimeDecodeNs_lt_iff (by omega) (by omega)).mp (hbelow.trans_lt hless)

theorem one_le_sensorPowtimeEncode (hge : powtimeLookup.getD 0 0 ≤ 1000 * raw)
    (hlt : 1000 * raw < powtimeLookup.getD 15 0) : 1 ≤ sensorPowtimeEncode raw := by
  have hfirst := powtimeLookup_first
  obtain ⟨-, -, habove⟩ := sensorPowtimeDecodeNs_encode hge hlt
  by_contra hzero
  rw [Nat.eq_zero_of_not_pos hzero] at habove
  have hone : sensorPowtimeDecodeNs (0 + 1) = 2467 := by decide
  omega

/-- The codes keep the order of two times exactly when both lie below the last entry or the first lies
below the second entry or both lie from the last entry on. -/
theorem sensorPowtimeEncode_le_iff {raw' : Nat} (hle : raw ≤ raw') (hfits : 1000 * raw' < 2 ^ 64) :
    sensorPowtimeEncode raw ≤ sensorPowtimeEncode raw' ↔
      1000 * raw' < powtimeLookup.getD 15 0 ∨ 1000 * raw < powtimeLookup.getD 1 0 ∨
        powtimeLookup.getD 15 0 ≤ 1000 * raw := by
  have hfirst := powtimeLookup_first
  have hsecond := powtimeLookup_second
  have hlast := powtimeLookup_last
  by_cases hzero : raw = 0
  · have hcode : sensorPowtimeEncode raw = 0 := by rw [hzero]; rfl
    omega
  by_cases htop' : powtimeLookup.getD 15 0 ≤ 1000 * raw'
  · rw [sensorPowtimeEncode_of_ge htop' hfits]
    by_cases htop : powtimeLookup.getD 15 0 ≤ 1000 * raw
    · have hcode := sensorPowtimeEncode_of_ge htop (by omega)
      omega
    · by_cases hlow : 1000 * raw < powtimeLookup.getD 0 0
      · have hcode := sensorPowtimeEncode_of_lt hzero hlow
        omega
      · have hiff : sensorPowtimeEncode raw < 16 * 1 ↔ 1000 * raw < powtimeLookup.getD 1 0 :=
          sensorPowtimeEncode_lt_iff (by omega) (by omega) (by decide) (by decide)
        omega
  · refine iff_of_true ?_ (Or.inl (by omega))
    by_cases hlow : 1000 * raw < powtimeLookup.getD 0 0
    · rw [sensorPowtimeEncode_of_lt hzero hlow]
      by_cases hlow' : 1000 * raw' < powtimeLookup.getD 0 0
      · rw [sensorPowtimeEncode_of_lt (by omega) hlow']
      · exact one_le_sensorPowtimeEncode (by omega) (by omega)
    · exact sensorPowtimeEncode_le_of_le (by omega) hle (by omega)

end Encode

/-- The powers on both sides of a time are those of its code and of the next one. -/
def PowtimeBrackets (raw : Nat) : Prop :=
  sensorPowtimeDecodeNs (sensorPowtimeEncode raw) ≤ 1000 * raw ∧
    1000 * raw < sensorPowtimeDecodeNs (sensorPowtimeEncode raw + 1)

def PowtimeOrdered (raw raw' : Nat) : Prop :=
  raw ≤ raw' → sensorPowtimeEncode raw ≤ sensorPowtimeEncode raw'

/-- The powers increase with the codes. A time in their range has its code exactly below the last entry,
and the order of two times is kept exactly unless only the second one has left the table, above a code
that is not among the lowest. -/
theorem sensorPowtime_iff (raw raw' : Nat) :
    StrictMonoOn sensorPowtimeDecodeNs (Set.Iio 256) ∧
      (powtimeLookup.getD 0 0 ≤ 1000 * raw → 1000 * raw < sensorPowtimeDecodeNs 255 →
        (PowtimeBrackets raw ↔ 1000 * raw < powtimeLookup.getD 15 0)) ∧
      (raw ≤ raw' → 1000 * raw' < 2 ^ 64 →
        (PowtimeOrdered raw raw' ↔ 1000 * raw' < powtimeLookup.getD 15 0 ∨
          1000 * raw < powtimeLookup.getD 1 0 ∨ powtimeLookup.getD 15 0 ≤ 1000 * raw)) := by
  refine ⟨sensorPowtimeDecodeNs_strictMonoOn, ?_, ?_⟩
  · intro hge hrange
    have hlargest : sensorPowtimeDecodeNs 255 < 2 ^ 64 := by decide
    constructor
    · intro hbrackets
      by_contra htop
      have habove := hbrackets.2
      rw [sensorPowtimeEncode_of_ge (by omega) (by omega)] at habove
      have hnext : sensorPowtimeDecodeNs (15 + 1) ≤ powtimeLookup.getD 15 0 := by decide
      omega
    · intro hlt
      exact (sensorPowtimeDecodeNs_encode hge hlt).2
  · intro hle hfits
    rw [← sensorPowtimeEncode_le_iff hle hfits]
    exact ⟨fun h => h hle, fun h _ => h⟩

/-- One second has the code 64. -/
theorem oneSecond_powtime : PowtimeBrackets 1000 ∧ PowtimeOrdered 1000 1100 :=
  ⟨((sensorPowtime_iff 1000 1100).2.1 (by decide) (by decide)).mpr (by decide),
    ((sensorPowtime_iff 1000 1100).2.2 (by decide) (by decide)).mpr (Or.inl (by decide))⟩

/-- A time of five and a half hours is taken for one of nine microseconds. -/
theorem lastEntry_powtime :
    powtimeLookup.getD 0 0 ≤ 1000 * 19280246756 ∧ 1000 * 19280246756 < sensorPowtimeDecodeNs 255 ∧
      sensorPowtimeEncode 19280246756 = 15 ∧ ¬ PowtimeBrackets 19280246756 ∧
      ¬ PowtimeOrdered 1000 19280246756 := by
  unfold PowtimeBrackets PowtimeOrdered
  decide

end SdkNrf.Mesh
