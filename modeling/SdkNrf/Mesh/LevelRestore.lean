import SdkNrf.Mesh.LevelServers

/-!
# What On restores

The field `last` is the level that On goes back to when there is no default level.
-/

namespace SdkNrf.Mesh

def lastNonZero (init : UInt16) (levels : List UInt16) : UInt16 :=
  levels.foldl (fun last lvl => if lvl = 0 then last else lvl) init

/-- The persistently stored `last`; without stored data it is what a reset gives. -/
def LevelSrv.storedLast (srv : LevelSrv) : UInt16 :=
  (srv.stored.map LevelSettings.last).getD LevelSrv.reset.last

/-- What a server keeps as long as no delta interferes; `last` is the last level set. -/
structure LevelInv (srv : LevelSrv) (last : UInt16) : Prop where
  last_eq : srv.last = last
  stored_eq : srv.storedLast = last
  nonzero : last ≠ 0
  max_ne : srv.range.max ≠ 0
  ordered : srv.range.min ≤ srv.range.max

theorem LevelRange.clamp_ne_zero {range : LevelRange} {lvl : UInt16} (hmax : range.max ≠ 0)
    (h : lvl ≠ 0) : range.clamp lvl ≠ 0 := by
  rw [LevelRange.clamp]
  split
  · exact hmax
  split
  next hlt =>
    intro hmin
    rw [hmin] at hlt
    exact absurd hlt (by simp)
  next => exact h

theorem LevelRange.clamp_mem {range : LevelRange} (hord : range.min ≤ range.max) (lvl : UInt16) :
    range.min ≤ range.clamp lvl ∧ range.clamp lvl ≤ range.max := by
  rw [LevelRange.clamp]
  simp only [UInt16.le_iff_toNat_le, UInt16.lt_iff_toNat_lt] at *
  split
  · omega
  split <;> omega

namespace LevelInv

variable {M : LevelModel} {srv : LevelSrv} {last : UInt16}

theorem reset : LevelInv .reset 0xFFFF := by
  constructor <;> decide

theorem storeState (hlast : srv.last = last) (hne : last ≠ 0) (hmax : srv.range.max ≠ 0)
    (hord : srv.range.min ≤ srv.range.max) : LevelInv srv.storeState last :=
  ⟨hlast, hlast, hne, hmax, hord⟩

theorem changeLvl (h : LevelInv srv last) (set : LevelSet) :
    LevelInv (srv.changeLvl set).1
      (if (srv.changeLvl set).2.lvl = 0 then last else (srv.changeLvl set).2.lvl) := by
  by_cases h0 : set.lvl = 0
  · simp only [LevelSrv.changeLvl, h0, ne_eq, not_true_eq_false, if_false, if_true]
    split
    · exact storeState h.last_eq h.nonzero h.max_ne h.ordered
    · exact ⟨h.last_eq, h.stored_eq, h.nonzero, h.max_ne, h.ordered⟩
  · have hne := LevelRange.clamp_ne_zero h.max_ne h0
    simp only [LevelSrv.changeLvl, ne_eq, h0, not_false_eq_true, if_true, hne, if_false]
    split
    · exact storeState rfl hne h.max_ne h.ordered
    next hsame =>
      have hlast : srv.last = srv.range.clamp set.lvl := by
        by_contra hdiff
        exact hsame (by simp [hdiff])
      exact ⟨rfl, h.stored_eq.trans (h.last_eq.symm.trans hlast), hne, h.max_ne, h.ordered⟩

theorem setDefault (h : LevelInv srv last) (val : UInt16) :
    LevelInv (setDefault M srv val) last := by
  rw [Mesh.setDefault]
  split
  · exact storeState h.last_eq h.nonzero h.max_ne h.ordered
  · exact h

theorem setRange (h : LevelInv srv last) (minVal maxVal : UInt16) :
    LevelInv (setRange M srv minVal maxVal) last := by
  rw [Mesh.setRange]
  split
  · exact h
  next hvalid =>
    split
    · simp only [not_or, UInt16.not_lt] at hvalid
      exact storeState h.last_eq h.nonzero hvalid.2.1 hvalid.2.2
    · exact h

end LevelInv

section Runs

variable (M : LevelModel)

/-- The message is no delta that leaves behind another value than the level set last: the value it
starts from is the level it sets or, when it switches off, the level set before. -/
def KeepsLast (srv : LevelSrv) : LevelMsg → Prop
  | .deltaSet delta newTransaction _ current =>
    deltaStart srv newTransaction current =
      if deltaTarget M srv delta newTransaction current = 0 then srv.last
      else srv.range.clamp (deltaTarget M srv delta newTransaction current)
  | _ => True

/-- Every message of the sequence keeps the last level, in the state in which it arrives. -/
def KeepLast : LevelSrv → List LevelMsg → Prop
  | _, [] => True
  | srv, msg :: msgs => KeepsLast M srv msg ∧ KeepLast (srv.step M msg).1 msgs

variable {M} {srv : LevelSrv} {last : UInt16}

private theorem changeLvl_lvl (srv : LevelSrv) (set : LevelSet) :
    (srv.changeLvl set).2.lvl = if set.lvl = 0 then 0 else srv.range.clamp set.lvl := by
  simp [LevelSrv.changeLvl]

private theorem changeLvl_last (srv : LevelSrv) (set : LevelSet) :
    (srv.changeLvl set).1.last = if set.lvl = 0 then srv.last else srv.range.clamp set.lvl := by
  by_cases h0 : set.lvl = 0
  · simp only [LevelSrv.changeLvl, h0, ne_eq, not_true_eq_false, if_false, if_true]
    split <;> rfl
  · simp only [LevelSrv.changeLvl, ne_eq, h0, not_false_eq_true, if_true, if_false]
    split <;> rfl

theorem LevelInv.deltaSet (h : LevelInv srv last) {delta : Int} {newTransaction : Bool}
    {transition : Option Transition} {current : UInt16}
    (hkeeps : KeepsLast M srv (.deltaSet delta newTransaction transition current)) :
    LevelInv (lvlDeltaSet M srv delta newTransaction transition current).1
      (if (lvlDeltaSet M srv delta newTransaction transition current).2.lvl = 0 then last
       else (lvlDeltaSet M srv delta newTransaction transition current).2.lvl) := by
  have hchange := h.changeLvl ⟨deltaTarget M srv delta newTransaction current, transition⟩
  have hstart : deltaStart srv newTransaction current = (srv.changeLvl
      ⟨deltaTarget M srv delta newTransaction current, transition⟩).1.last := by
    rw [changeLvl_last]
    exact hkeeps
  -- The overwritten field already had this value.
  have hsame : (lvlDeltaSet M srv delta newTransaction transition current).1 =
      (srv.changeLvl ⟨deltaTarget M srv delta newTransaction current, transition⟩).1 := by
    simp only [lvlDeltaSet, hstart]
  rw [hsame]
  exact hchange

theorem LevelInv.step (h : LevelInv srv last) {msg : LevelMsg} (hkeeps : KeepsLast M srv msg) :
    LevelInv (srv.step M msg).1
      (lastNonZero last ((srv.step M msg).2.map LevelSet.lvl).toList) := by
  cases msg with
  | set repr val transition => exact h.changeLvl _
  | lvlSet lvl newTransaction transition =>
    cases newTransaction with
    | false => exact h
    | true => exact h.changeLvl _
  | deltaSet delta newTransaction transition current => exact h.deltaSet hkeeps
  | moveSet delta transition current => exact h.changeLvl _
  | onOff onOff transition => exact h.changeLvl _
  | setDefault val => exact h.setDefault val
  | setRange minVal maxVal => exact h.setRange minVal maxVal

theorem LevelInv.run (h : LevelInv srv last) {msgs : List LevelMsg} (hkeep : KeepLast M srv msgs) :
    LevelInv (srv.run M msgs) (lastNonZero last (srv.handed M msgs)) := by
  induction msgs generalizing srv last with
  | nil => exact h
  | cons msg msgs ih =>
    have hrest := ih (h.step hkeep.1) hkeep.2
    rwa [lastNonZero, lastNonZero, ← List.foldl_append] at hrest

end Runs

inductive LevelServer
  | plvl
  | lightness (user : LightRepr)
  deriving DecidableEq, Repr

def LevelServer.model : LevelServer → LevelModel
  | .plvl => plvlModel
  | .lightness user => lightnessModel user

/-- On hands over the default level, or else `last`, clamped into the range. -/
structure OnRestores (srv : LevelSrv) (last : UInt16) : Prop where
  level : ∀ transition, (onoffSet srv true transition).2.lvl =
    srv.range.clamp (if srv.defaultLevel ≠ 0 then srv.defaultLevel else last)
  nonzero : ∀ transition, (onoffSet srv true transition).2.lvl ≠ 0
  inside : ∀ transition, srv.range.min ≤ (onoffSet srv true transition).2.lvl ∧
    (onoffSet srv true transition).2.lvl ≤ srv.range.max

theorem LevelInv.onRestores {srv : LevelSrv} {last : UInt16} (h : LevelInv srv last) :
    OnRestores srv last := by
  have hne : (if srv.defaultLevel ≠ 0 then srv.defaultLevel else srv.last) ≠ 0 := by
    split
    next hdefault => exact hdefault
    next => exact h.last_eq ▸ h.nonzero
  have hlvl (transition : Option Transition) : (onoffSet srv true transition).2.lvl =
      srv.range.clamp (if srv.defaultLevel ≠ 0 then srv.defaultLevel else srv.last) := by
    rw [onoffSet, changeLvl_lvl, if_pos rfl, if_neg hne]
  constructor
  · intro transition
    rw [hlvl, h.last_eq]
  · intro transition
    rw [hlvl]
    exact LevelRange.clamp_ne_zero h.max_ne hne
  · intro transition
    rw [hlvl]
    exact LevelRange.clamp_mem h.ordered _

/-- In every state that a server reaches without a delta that leaves another value behind, the
stored last level is the last level that was set and is not zero, and On restores it. -/
theorem run_onRestores (server : LevelServer) (msgs : List LevelMsg)
    (hkeep : KeepLast server.model .reset msgs) :
    (LevelSrv.reset.run server.model msgs).storedLast ≠ 0 ∧
      (LevelSrv.reset.run server.model msgs).storedLast =
        lastNonZero LevelSrv.reset.last (LevelSrv.reset.handed server.model msgs) ∧
      OnRestores (LevelSrv.reset.run server.model msgs)
        (LevelSrv.reset.run server.model msgs).storedLast := by
  have hinv := LevelInv.reset.run hkeep
  rw [hinv.stored_eq]
  exact ⟨hinv.nonzero, rfl, hinv.onRestores⟩

def levelThenRange : List LevelMsg :=
  [.set .actual 500 ⟨0, 0⟩, .setRange 1000 2000, .onOff false none]

theorem levelThenRange_onRestores :
    (LevelSrv.reset.run plvlModel levelThenRange).storedLast = 500 ∧
      (onoffSet (LevelSrv.reset.run plvlModel levelThenRange) true none).2.lvl = 1000 := by
  have h := run_onRestores .plvl levelThenRange ⟨trivial, trivial, trivial, trivial⟩
  refine ⟨h.2.1.trans (by decide), ?_⟩
  exact (h.2.2.level none).trans (by decide)

/-- A delta while the level is zero: On then hands over zero, and zero is stored. -/
theorem deltaWhileOff_not_restored :
    (LevelSrv.reset.run plvlModel [.deltaSet 100 true none 0]).storedLast = 100 ∧
      (onoffSet (LevelSrv.reset.run plvlModel [.deltaSet 100 true none 0]) true none).2.lvl = 0 ∧
      (LevelSrv.reset.run plvlModel [.deltaSet 100 true none 0, .onOff true none]).storedLast = 0 ∧
      ¬ OnRestores (LevelSrv.reset.run plvlModel [.deltaSet 100 true none 0])
        (LevelSrv.reset.run plvlModel [.deltaSet 100 true none 0]).storedLast := by
  refine ⟨by decide, by decide, by decide, ?_⟩
  intro h
  exact h.nonzero none (by decide)

end SdkNrf.Mesh
