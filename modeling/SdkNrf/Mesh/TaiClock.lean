import SdkNrf.Mesh.TimeSrv

/-!
# The TAI clock between synchronisations

`tai_at` advances the seconds and the subseconds of the synchronised time separately, each in its
own bit-field.
-/

namespace SdkNrf.Mesh

def TimeTai.count (tai : TimeTai) : Int := 256 * tai.sec + tai.subsec

namespace TimeSrv

def elapsedSteps (srv : TimeSrv) (uptime : Int) : Int := 256 * (uptime - srv.uptime) / 1000

/-- The subseconds pass no end of a second of their own, and the seconds fit. -/
def KeepsCarry (srv : TimeSrv) (uptime : Int) : Prop :=
  srv.status.tai.subsec + srv.elapsedSteps uptime % 256 < 256
    ∧ srv.status.tai.sec + srv.elapsedSteps uptime / 256 < 2 ^ 40

instance (srv : TimeSrv) (uptime : Int) : Decidable (srv.KeepsCarry uptime) :=
  inferInstanceAs (Decidable (_ ∧ _))

def Advanced (srv : TimeSrv) (uptime : Int) : Prop :=
  (srv.taiAt uptime).count = srv.status.tai.count + srv.elapsedSteps uptime

/-- At two uptimes in order, the clock has advanced and does not go back. -/
structure AdvancesBetween (srv : TimeSrv) (u₁ u₂ : Int) : Prop where
  first : srv.Advanced u₁
  second : srv.Advanced u₂
  mono : (srv.taiAt u₁).count ≤ (srv.taiAt u₂).count

variable {srv : TimeSrv} {uptime : Int}

theorem taiAt_fields (hknown : taiIsUnknown srv.status.tai = false) (hsync : srv.uptime ≤ uptime)
    (hlt : uptime - srv.uptime < 2 ^ 55) :
    ((srv.taiAt uptime).sec : Int) = (srv.status.tai.sec + srv.elapsedSteps uptime / 256) % 2 ^ 40
      ∧ ((srv.taiAt uptime).subsec : Int)
        = (srv.status.tai.subsec + srv.elapsedSteps uptime) % 256 := by
  have hsteps : toSigned 64 (256 * (uptime - srv.uptime)) = 256 * (uptime - srv.uptime) := by
    apply toSigned_of_mem <;> omega
  have hnonneg : 0 ≤ 256 * (uptime - srv.uptime) := by omega
  have helapsed : 0 ≤ srv.elapsedSteps uptime := by
    rw [elapsedSteps]
    omega
  have hquot : (256 * (uptime - srv.uptime)).tdiv 1000 = srv.elapsedSteps uptime := by
    rw [elapsedSteps, Int.tdiv_eq_ediv_of_nonneg hnonneg]
  simp only [taiAt, hknown, Bool.false_eq_true, if_false, hsteps, hquot, TimeTai.store_sec,
    TimeTai.store_subsec, Int.tdiv_eq_ediv_of_nonneg helapsed, and_self]

theorem count_lt (tai : TimeTai) : tai.count < 2 ^ 48 := by
  have hsec := tai.sec_lt
  have hsubsec := tai.subsec_lt
  rw [TimeTai.count]
  omega

theorem advanced_iff (hknown : taiIsUnknown srv.status.tai = false) (hsync : srv.uptime ≤ uptime) :
    srv.Advanced uptime ↔ srv.KeepsCarry uptime := by
  have hsec := srv.status.tai.sec_lt
  have hsubsec := srv.status.tai.subsec_lt
  by_cases hlt : uptime - srv.uptime < 2 ^ 55
  · obtain ⟨htaiSec, htaiSubsec⟩ := taiAt_fields hknown hsync hlt
    have helapsed : 0 ≤ srv.elapsedSteps uptime := by
      rw [elapsedSteps]
      omega
    rw [Advanced, KeepsCarry, TimeTai.count, TimeTai.count, htaiSec, htaiSubsec]
    generalize srv.elapsedSteps uptime = steps at helapsed
    omega
  · -- The seconds are beyond the field long before the steps overflow.
    have hfar : 2 ^ 40 ≤ srv.elapsedSteps uptime / 256 := by
      rw [elapsedSteps]
      omega
    have hcount := count_lt (srv.taiAt uptime)
    have hstart : srv.status.tai.count = 256 * srv.status.tai.sec + srv.status.tai.subsec := rfl
    rw [Advanced, KeepsCarry]
    constructor
    · intro hadvanced
      omega
    · intro hcarry
      omega

theorem elapsedSteps_mono {u₁ u₂ : Int} (h : u₁ ≤ u₂) :
    srv.elapsedSteps u₁ ≤ srv.elapsedSteps u₂ := by
  simp only [elapsedSteps]
  omega

/-- The clock advances as it should exactly when no carry is lost at either uptime. -/
theorem advancesBetween_iff (srv : TimeSrv) (u₁ u₂ : Int)
    (hknown : taiIsUnknown srv.status.tai = false) (hsync : srv.uptime ≤ u₁) (hle : u₁ ≤ u₂) :
    srv.AdvancesBetween u₁ u₂ ↔ srv.KeepsCarry u₁ ∧ srv.KeepsCarry u₂ := by
  have hfirst := advanced_iff hknown hsync
  have hsecond := advanced_iff hknown (hsync.trans hle)
  constructor
  · intro h
    exact ⟨hfirst.mp h.first, hsecond.mp h.second⟩
  · intro h
    have hadvanced₁ := hfirst.mpr h.1
    have hadvanced₂ := hsecond.mpr h.2
    refine ⟨hadvanced₁, hadvanced₂, ?_⟩
    rw [hadvanced₁, hadvanced₂]
    exact Int.add_le_add_left (elapsedSteps_mono hle) _

def endOfSecond : TimeSrv :=
  { oneHourEast with status := { oneHourEast.status with tai := .store 1000 255 } }

/-- Four milliseconds later the clock is almost a second back. -/
theorem endOfSecond_not_advances :
    taiIsUnknown endOfSecond.status.tai = false ∧ endOfSecond.uptime = 0
      ∧ ((endOfSecond.taiAt 4).sec = 1000 ∧ (endOfSecond.taiAt 4).subsec = 0)
      ∧ ¬ endOfSecond.AdvancesBetween 0 4 := by
  refine ⟨by decide, by decide, by decide, fun h => ?_⟩
  exact absurd h.mono (by decide)

/-- Within the first second and in the next one. -/
theorem quarterEast_advances :
    taiIsUnknown quarterEast.status.tai = false ∧ quarterEast.AdvancesBetween 2000 2600 := by
  refine ⟨by decide, ?_⟩
  rw [advancesBetween_iff quarterEast 2000 2600 (by decide) (by decide) (by decide)]
  exact ⟨by decide, by decide⟩

end TimeSrv

end SdkNrf.Mesh
