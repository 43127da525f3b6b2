import SdkNrf.Mesh.LevelRestore
import SdkNrf.Mesh.LightConversions

/-!
# Level deltas

A delta is added to the level at the start of its transaction in the actual representation, and the sum is cut
to 16 bits before it is limited to the range.
-/

namespace SdkNrf.Mesh

/-- The conversion to the configured representation rounds up and the one from it rounds down, and
both keep the ends. -/
structure Converts (M : LevelModel) : Prop where
  le_iff : ∀ actual lvl, M.toLevel .actual actual ≤ lvl ↔ actual ≤ M.ofLevel lvl
  zero : M.ofLevel 0 = 0
  top : M.toLevel .actual 65535 = 65535

theorem LevelServer.converts (server : LevelServer) : Converts server.model := by
  cases server with
  | plvl => exact ⟨fun _ _ => Iff.rfl, rfl, rfl⟩
  | lightness user =>
    cases user with
    | actual => exact ⟨fun _ _ => Iff.rfl, rfl, rfl⟩
    | linear => exact ⟨actualToLinear_le_iff, linearToActual_zero, actualToLinear_max⟩

namespace Converts

variable {M : LevelModel} (h : Converts M)

include h

theorem le_ofLevel_toLevel (actual : UInt16) : actual ≤ M.ofLevel (M.toLevel .actual actual) :=
  (h.le_iff _ _).mp (UInt16.le_refl _)

theorem toLevel_ofLevel_le (lvl : UInt16) : M.toLevel .actual (M.ofLevel lvl) ≤ lvl :=
  (h.le_iff _ _).mpr (UInt16.le_refl _)

theorem toLevel_mono {a b : UInt16} (hle : a ≤ b) : M.toLevel .actual a ≤ M.toLevel .actual b :=
  (h.le_iff _ _).mpr (UInt16.le_trans hle (h.le_ofLevel_toLevel b))

theorem ofLevel_mono {a b : UInt16} (hle : a ≤ b) : M.ofLevel a ≤ M.ofLevel b :=
  (h.le_iff _ _).mp (UInt16.le_trans (h.toLevel_ofLevel_le a) hle)

theorem toLevel_ofLevel_toLevel (actual : UInt16) :
    M.toLevel .actual (M.ofLevel (M.toLevel .actual actual)) = M.toLevel .actual actual := by
  apply UInt16.le_antisymm
  · exact h.toLevel_ofLevel_le _
  · exact h.toLevel_mono (h.le_ofLevel_toLevel actual)

theorem toLevel_eq_zero {actual : UInt16} : M.toLevel .actual actual = 0 ↔ actual = 0 := by
  have hiff := h.le_iff actual 0
  rw [h.zero] at hiff
  rw [← UInt16.le_zero_iff, hiff, UInt16.le_zero_iff]

end Converts

def actualRange (M : LevelModel) (srv : LevelSrv) : LevelRange :=
  ⟨M.ofLevel srv.range.min, M.ofLevel srv.range.max⟩

def limitTo (range : LevelRange) (target : Int) : UInt16 :=
  if target ≤ 0 then 0
  else .ofInt (max (range.min.toNat : Int) (min (range.max.toNat : Int) target))

structure RangeInv (M : LevelModel) (range : LevelRange) : Prop where
  ordered : range.min ≤ range.max
  max_ne : range.max ≠ 0
  min_back : M.toLevel .actual (M.ofLevel range.min) = range.min
  max_back : M.toLevel .actual (M.ofLevel range.max) = range.max

theorem toNat_ofInt (t : Int) : ((UInt16.ofInt t).toNat : Int) = t % 65536 := by
  rw [UInt16.ofInt, UInt16.toNat_ofNat']
  omega

theorem ofInt_toNat (lvl : UInt16) : UInt16.ofInt lvl.toNat = lvl := by
  have hlvl := toNat_ofInt lvl.toNat
  have hlt := lvl.toNat_lt
  rw [← UInt16.toNat_inj]
  omega

/-- Above zero, the level space limits what `change_lvl` limits. -/
theorem limitTo_toNat {range : LevelRange} (hord : range.min ≤ range.max) {lvl : UInt16}
    (hlvl : lvl ≠ 0) : limitTo range lvl.toNat = range.clamp lvl := by
  have hpos : 0 < lvl.toNat := Nat.pos_of_ne_zero fun hzero => hlvl (UInt16.toNat_inj.mp hzero)
  have hlt := lvl.toNat_lt
  have hmin := range.min.toNat_lt
  have hmax := range.max.toNat_lt
  rw [UInt16.le_iff_toNat_le] at hord
  rw [limitTo, if_neg (by omega), LevelRange.clamp]
  simp only [UInt16.lt_iff_toNat_lt]
  split_ifs with habove hbelow
  · rw [show max (range.min.toNat : Int) (min (range.max.toNat : Int) lvl.toNat)
      = range.max.toNat by omega]
    exact ofInt_toNat _
  · rw [show max (range.min.toNat : Int) (min (range.max.toNat : Int) lvl.toNat)
      = range.min.toNat by omega]
    exact ofInt_toNat _
  · rw [show max (range.min.toNat : Int) (min (range.max.toNat : Int) lvl.toNat)
      = lvl.toNat by omega]
    exact ofInt_toNat _

theorem clamp_toLevel {M : LevelModel} (h : Converts M) {range : LevelRange}
    (hrange : RangeInv M range) (lvl : UInt16) : range.clamp (M.toLevel .actual lvl)
      = M.toLevel .actual ((⟨M.ofLevel range.min, M.ofLevel range.max⟩ : LevelRange).clamp lvl) := by
  have hmax : range.max < M.toLevel .actual lvl ↔ M.ofLevel range.max < lvl := by
    rw [← UInt16.not_le, ← UInt16.not_le, h.le_iff]
  have hord := hrange.ordered
  rw [LevelRange.clamp, LevelRange.clamp]
  dsimp only
  simp only [hmax]
  split
  · exact hrange.max_back.symm
  · split
    · next hbelow =>
      split
      · exact hrange.min_back.symm
      · next hbelow' =>
        have hle := h.toLevel_mono (UInt16.not_lt.mp hbelow')
        rw [hrange.min_back] at hle
        exact absurd hbelow (UInt16.not_lt.mpr hle)
    · next hbelow =>
      split
      · next hbelow' =>
        have hle := h.toLevel_mono (UInt16.le_of_lt hbelow')
        rw [hrange.min_back] at hle ⊢
        exact UInt16.le_antisymm hle (UInt16.not_lt.mp hbelow)
      · rfl

/-- What happens to a server: a message, or a power cycle, which loads the stored settings. At its
start the server may set any level. -/
inductive LevelEvent
  | message (msg : LevelMsg)
  | powerUp (set : Option LevelSet)

/-- `settings_set` after a reset. -/
def LevelSrv.reload (srv : LevelSrv) : LevelSrv :=
  { srv.stored.getD LevelSrv.reset.toLevelSettings with stored := srv.stored }

def LevelSrv.handle (M : LevelModel) (srv : LevelSrv) : LevelEvent → LevelSrv
  | .message msg => (srv.step M msg).1
  | .powerUp none => srv.reload
  | .powerUp (some set) => (srv.reload.changeLvl set).1

def LevelSrv.after (M : LevelModel) (srv : LevelSrv) (events : List LevelEvent) : LevelSrv :=
  events.foldl (LevelSrv.handle M) srv

/-- The range and the stored one are as `set_range` leaves them. -/
structure RangesInv (M : LevelModel) (srv : LevelSrv) : Prop where
  range : RangeInv M srv.range
  stored : ∀ settings ∈ srv.stored, RangeInv M settings.range

@[simp] theorem changeLvl_range (srv : LevelSrv) (set : LevelSet) :
    (srv.changeLvl set).1.range = srv.range := by
  simp only [LevelSrv.changeLvl]
  split <;> split <;> rfl

namespace RangesInv

variable {M : LevelModel} {srv : LevelSrv}

theorem storeState (h : RangeInv M srv.range) : RangesInv M srv.storeState := by
  refine ⟨h, fun settings hsettings => ?_⟩
  rw [← Option.some.inj hsettings]
  exact h

theorem changeLvl (h : RangesInv M srv) (set : LevelSet) : RangesInv M (srv.changeLvl set).1 := by
  simp only [LevelSrv.changeLvl]
  split <;> split
  · exact storeState h.range
  · exact ⟨h.range, h.stored⟩
  · exact storeState h.range
  · exact ⟨h.range, h.stored⟩

theorem setDefault (h : RangesInv M srv) (val : UInt16) : RangesInv M (setDefault M srv val) := by
  rw [Mesh.setDefault]
  split
  · exact storeState h.range
  · exact h

theorem setRange (hM : Converts M) (h : RangesInv M srv) (minVal maxVal : UInt16) :
    RangesInv M (setRange M srv minVal maxVal) := by
  rw [Mesh.setRange]
  split
  · exact h
  · next hvalid =>
    simp only [not_or, UInt16.not_lt] at hvalid
    split
    · apply storeState
      exact ⟨hvalid.2.2, hvalid.2.1, hM.toLevel_ofLevel_toLevel _, hM.toLevel_ofLevel_toLevel _⟩
    · exact h

theorem step (hM : Converts M) (h : RangesInv M srv) (msg : LevelMsg) :
    RangesInv M (srv.step M msg).1 := by
  cases msg with
  | set repr val transition => exact h.changeLvl _
  | lvlSet lvl newTransaction transition =>
    cases newTransaction with
    | false => exact h
    | true => exact h.changeLvl _
  | deltaSet delta newTransaction transition current =>
    have hchange := h.changeLvl ⟨deltaTarget M srv delta newTransaction current, transition⟩
    exact ⟨hchange.range, hchange.stored⟩
  | moveSet delta transition current => exact h.changeLvl _
  | onOff onOff transition => exact h.changeLvl _
  | setDefault val => exact h.setDefault val
  | setRange minVal maxVal => exact h.setRange hM minVal maxVal

theorem reset (hM : Converts M) : RangesInv M .reset := by
  have hzero := hM.toLevel_eq_zero.mpr rfl
  have htop : M.ofLevel 65535 = 65535 := by
    apply UInt16.le_antisymm
    · exact UInt16.le_iff_toNat_le.mpr (Nat.le_of_lt_succ (M.ofLevel 65535).toNat_lt)
    · exact (hM.le_iff _ _).mp (UInt16.le_of_eq hM.top)
  refine ⟨⟨by decide, by decide, ?_, ?_⟩, by simp [LevelSrv.reset]⟩
  · change M.toLevel .actual (M.ofLevel 0) = 0
    rw [hM.zero, hzero]
  · change M.toLevel .actual (M.ofLevel 65535) = 65535
    rw [htop, hM.top]

theorem reload (hM : Converts M) (h : RangesInv M srv) : RangesInv M srv.reload := by
  refine ⟨?_, h.stored⟩
  cases hstored : srv.stored with
  | none => simpa [LevelSrv.reload, hstored] using (reset hM).range
  | some settings => simpa [LevelSrv.reload, hstored] using h.stored settings hstored

theorem handle (hM : Converts M) (h : RangesInv M srv) (event : LevelEvent) :
    RangesInv M (srv.handle M event) := by
  cases event with
  | message msg => exact h.step hM msg
  | powerUp set =>
    cases set with
    | none => exact h.reload hM
    | some set => exact (h.reload hM).changeLvl set

theorem after (hM : Converts M) (h : RangesInv M srv) (events : List LevelEvent) :
    RangesInv M (srv.after M events) := by
  induction events generalizing srv with
  | nil => exact h
  | cons event events ih => exact ih (h.handle hM event)

end RangesInv

section Delta

variable (M : LevelModel) (srv : LevelSrv)

/-- The target of a delta in the actual representation, which nothing has cut yet. -/
def deltaSum (delta : Int) (newTransaction : Bool) (current : UInt16) : Int :=
  (M.ofLevel (deltaStart srv newTransaction current)).toNat + delta

/-- The level that is handed over is the target within the level space. -/
def DeltaSaturates (delta : Int) (newTransaction : Bool) (transition : Option Transition)
    (current : UInt16) : Prop :=
  (lvlDeltaSet M srv delta newTransaction transition current).2.lvl
    = M.toLevel .actual (limitTo (actualRange M srv) (deltaSum M srv delta newTransaction current))

instance (delta : Int) (newTransaction : Bool) (transition : Option Transition)
    (current : UInt16) : Decidable (DeltaSaturates M srv delta newTransaction transition current) :=
  inferInstanceAs (Decidable (_ = _))

/-- The target fits 16 bits, or what is left of it in 16 bits is limited to the same level: to zero
below zero, and to the top of the range above. -/
def CutRight (target : Int) : Prop :=
  0 ≤ target ∧ target < 65536
    ∨ target < 0 ∧ target % 65536 = 0
    ∨ 65536 ≤ target ∧ target % 65536 ≠ 0
      ∧ (srv.range.max ≤ M.toLevel .actual (.ofInt target) ∨ srv.range.min = srv.range.max)

variable {M srv}

theorem lvlDeltaSet_lvl (delta : Int) (newTransaction : Bool) (transition : Option Transition)
    (current : UInt16) : (lvlDeltaSet M srv delta newTransaction transition current).2.lvl
      = if deltaTarget M srv delta newTransaction current = 0 then 0
        else srv.range.clamp (deltaTarget M srv delta newTransaction current) := by
  simp [lvlDeltaSet, LevelSrv.changeLvl]

theorem limitTo_of_fits (hM : Converts M) (hrange : RangeInv M srv.range) (lvl : UInt16) :
    (if M.toLevel .actual lvl = 0 then 0 else srv.range.clamp (M.toLevel .actual lvl))
      = M.toLevel .actual (limitTo (actualRange M srv) lvl.toNat) := by
  simp only [hM.toLevel_eq_zero]
  split
  · next hzero =>
    have hle : ((0 : UInt16).toNat : Int) ≤ 0 := by decide
    rw [hzero, limitTo, if_pos hle]
    exact (hM.toLevel_eq_zero.mpr rfl).symm
  · next hne =>
    rw [limitTo_toNat (hM.ofLevel_mono hrange.ordered) hne]
    exact clamp_toLevel hM hrange lvl

theorem limitTo_of_above (hM : Converts M) (hrange : RangeInv M srv.range) {target : Int}
    (h : 65536 ≤ target) :
    M.toLevel .actual (limitTo (actualRange M srv) target) = srv.range.max := by
  have hord := UInt16.le_iff_toNat_le.mp (hM.ofLevel_mono hrange.ordered)
  have hlt := (M.ofLevel srv.range.max).toNat_lt
  have htop : max ((M.ofLevel srv.range.min).toNat : Int)
      (min ((M.ofLevel srv.range.max).toNat : Int) target) = (M.ofLevel srv.range.max).toNat := by
    omega
  rw [limitTo, if_neg (by omega), actualRange]
  dsimp only
  rw [htop, ofInt_toNat, hrange.max_back]

/-- A level is limited to the top of the range exactly when it is not below it, or the range is a
single level. -/
theorem clamp_eq_max_iff {range : LevelRange} (hord : range.min ≤ range.max) (lvl : UInt16) :
    range.clamp lvl = range.max ↔ range.max ≤ lvl ∨ range.min = range.max := by
  simp only [LevelRange.clamp, ← UInt16.toNat_inj, UInt16.le_iff_toNat_le,
    UInt16.lt_iff_toNat_lt] at hord ⊢
  split_ifs <;> omega

theorem deltaSaturates_iff_cutRight (hM : Converts M) (hrange : RangeInv M srv.range) (delta : Int)
    (newTransaction : Bool) (transition : Option Transition) (current : UInt16) :
    DeltaSaturates M srv delta newTransaction transition current
      ↔ CutRight M srv (deltaSum M srv delta newTransaction current) := by
  rw [DeltaSaturates, lvlDeltaSet_lvl, deltaTarget, ← deltaSum]
  generalize deltaSum M srv delta newTransaction current = target
  have hcut := toNat_ofInt target
  have hzero : M.toLevel .actual (.ofInt target) = 0 ↔ target % 65536 = 0 := by
    rw [hM.toLevel_eq_zero, ← UInt16.toNat_inj, UInt16.toNat_zero]
    omega
  rcases lt_or_ge target 0 with hneg | hnonneg
  · have hoff : M.toLevel .actual (limitTo (actualRange M srv) target) = 0 := by
      rw [limitTo, if_pos hneg.le]
      exact hM.toLevel_eq_zero.mpr rfl
    rw [hoff, CutRight, ← hzero]
    split
    · next h => exact iff_of_true rfl (.inr (.inl ⟨hneg, h⟩))
    · next h =>
      have hne := LevelRange.clamp_ne_zero hrange.max_ne h
      refine iff_of_false hne ?_
      rintro (hfits | hbelow | habove)
      · omega
      · exact h hbelow.2
      · omega
  · rcases lt_or_ge target 65536 with hfits | habove
    · have hsame : ((UInt16.ofInt target).toNat : Int) = target := by omega
      have hlimit := limitTo_of_fits hM hrange (.ofInt target)
      rw [hsame] at hlimit
      exact iff_of_true hlimit (.inl ⟨hnonneg, hfits⟩)
    · rw [limitTo_of_above hM hrange habove, CutRight, ← clamp_eq_max_iff hrange.ordered, ne_eq,
        ← hzero]
      split
      · next h =>
        refine iff_of_false hrange.max_ne.symm ?_
        rintro (hfits | hbelow | hcut)
        · omega
        · omega
        · exact hcut.2.1 h
      · next h =>
        constructor
        · intro heq
          exact .inr (.inr ⟨habove, h, heq⟩)
        · rintro (hfits | hbelow | hcut)
          · omega
          · omega
          · exact hcut.2.2

def corrections (deltas : List (Int × Option Transition × UInt16)) : List LevelMsg :=
  deltas.map fun delta => .deltaSet delta.1 false delta.2.1 delta.2.2

theorem corrections_keep {start : UInt16} {range : LevelRange} (hlast : srv.last = start)
    (hrange : srv.range = range) (deltas : List (Int × Option Transition × UInt16)) :
    (srv.run M (corrections deltas)).last = start
      ∧ (srv.run M (corrections deltas)).range = range := by
  induction deltas generalizing srv with
  | nil => exact ⟨hlast, hrange⟩
  | cons delta deltas ih =>
    apply ih
    · exact hlast
    · exact (changeLvl_range _ _).trans hrange

/-- The last delta of a transaction hands over what it would as the only one, from the level at the
start of the transaction. -/
def LastDeltaCounts (M : LevelModel) (srv : LevelSrv) : Prop :=
  ∀ (start : UInt16) (delta₀ : Int) (transition₀ : Option Transition)
    (deltas : List (Int × Option Transition × UInt16)) (delta : Int)
    (transition : Option Transition) (current : UInt16),
    (lvlDeltaSet M (srv.run M (.deltaSet delta₀ true transition₀ start :: corrections deltas)) delta
        false transition current).2.lvl
      = (lvlDeltaSet M srv delta true transition start).2.lvl

theorem lastDeltaCounts (M : LevelModel) (srv : LevelSrv) : LastDeltaCounts M srv := by
  intro start delta₀ transition₀ deltas delta transition current
  have hstart : (srv.step M (.deltaSet delta₀ true transition₀ start)).1.last = start := rfl
  have hfirst : (srv.step M (.deltaSet delta₀ true transition₀ start)).1.range = srv.range :=
    changeLvl_range _ _
  obtain ⟨hlast, hrange⟩ := corrections_keep hstart hfirst deltas
  have hrun : srv.run M (.deltaSet delta₀ true transition₀ start :: corrections deltas)
      = (srv.step M (.deltaSet delta₀ true transition₀ start)).1.run M (corrections deltas) := rfl
  rw [lvlDeltaSet_lvl, lvlDeltaSet_lvl, hrun, hrange]
  simp only [deltaTarget, deltaStart, hlast, Bool.false_eq_true, if_true, if_false]

/-- In every state that a server reaches, a delta saturates exactly when cutting the target does not
matter, and the last delta of a transaction counts. -/
theorem delta_saturates_iff (server : LevelServer) (events : List LevelEvent) (delta : Int)
    (newTransaction : Bool) (transition : Option Transition) (current : UInt16) :
    (DeltaSaturates server.model (LevelSrv.reset.after server.model events) delta newTransaction
        transition current
      ↔ CutRight server.model (LevelSrv.reset.after server.model events)
        (deltaSum server.model (LevelSrv.reset.after server.model events) delta newTransaction
          current))
      ∧ LastDeltaCounts server.model (LevelSrv.reset.after server.model events) := by
  have hM := server.converts
  have hreached := (RangesInv.reset hM).after hM events
  exact ⟨deltaSaturates_iff_cutRight hM hreached.range _ _ _ _, lastDeltaCounts _ _⟩

/-- One step down from zero hands over the highest level, and one step up from there zero. -/
theorem stepDown_not_saturates :
    (lvlDeltaSet plvlModel .reset (-1) true none 0).2.lvl = 65535
      ∧ (lvlDeltaSet plvlModel .reset 1 true none 65535).2.lvl = 0
      ∧ ¬ DeltaSaturates plvlModel .reset (-1) true none 0 := by
  refine ⟨by decide, by decide, ?_⟩
  decide

end Delta

end SdkNrf.Mesh
