import SdkNrf.Framework.LinkedChain

/-!
# The sorted list of sensors

`sensor_srv_init` links the sensors of the array in the order of their ids: each round takes the first sensor
with the smallest id from a lower bound on, which is then set behind that id.
-/

namespace SdkNrf.Mesh.SensorList

variable {σ : Type} (typeId : σ → UInt16)

/-- `sensor_get`, over the sensors of the list. -/
def sensorGet (sensors : List σ) (x : UInt16) : Option σ := sensors.find? fun sensor => typeId sensor = x

def betterOf (minId : UInt16) (best : Option σ) (sensor : σ) : Option σ :=
  if minId ≤ typeId sensor ∧ (∀ b ∈ best, typeId sensor < typeId b) then some sensor else best

/-- The inner loop of `sensor_srv_init`. -/
def bestFrom (minId : UInt16) (array : List σ) : Option σ := array.foldl (betterOf typeId minId) none

/-- The rounds of `sensor_srv_init` that are left: the list and the number of sensors in it. -/
def initRounds [DecidableEq σ] (array : List σ) : Nat → UInt16 → LinkedChain σ → LinkedChain σ × Nat
  | 0, _, list => (list, array.length)
  | rounds + 1, minId, list =>
    match bestFrom typeId minId array with
    | none => (list, array.length - (rounds + 1))
    | some best => initRounds array rounds (typeId best + 1) (list.append best)

/-- `sensor_srv_init`, for the first `sensor_count` sensors of the array: the list `sensors` and the
new `sensor_count`. -/
def sensorSrvInit [DecidableEq σ] (array : List σ) : LinkedChain σ × Nat :=
  initRounds typeId array array.length 0 .empty

/-- The list is sorted, has one sensor of the array for each of its ids, and `sensor_get` finds the
ids of the array. -/
structure ListsSensors (array sensors : List σ) : Prop where
  sorted : sensors.Pairwise fun a b => typeId a < typeId b
  subset : ∀ sensor ∈ sensors, sensor ∈ array
  complete : ∀ sensor ∈ array, typeId sensor ∈ sensors.map typeId
  get : ∀ x, (sensorGet typeId sensors x).isSome ↔ x ∈ array.map typeId

/-- The server is initialised with a list that is as it should be. -/
def InitRight [DecidableEq σ] (array : List σ) : Prop :=
  ∃ sensors, LinkedChain.Path (sensorSrvInit typeId array).1.next sensors
    (sensorSrvInit typeId array).1.head ∧ ListsSensors typeId array sensors

section Round

variable {typeId} {minId : UInt16}

/-- `best` is the first sensor with the smallest id from the bound on among those `seen`. -/
structure IsBest (typeId : σ → UInt16) (minId : UInt16) (seen : List σ) (best : Option σ) : Prop where
  mem : ∀ b ∈ best, b ∈ seen ∧ minId ≤ typeId b
  least : ∀ b ∈ best, ∀ sensor ∈ seen, minId ≤ typeId sensor → typeId b ≤ typeId sensor
  below : best = none → ∀ sensor ∈ seen, typeId sensor < minId

theorem IsBest.nil : IsBest typeId minId [] none := ⟨by simp, by simp, by simp⟩

theorem IsBest.step {seen : List σ} {best : Option σ} (h : IsBest typeId minId seen best) (sensor : σ) :
    IsBest typeId minId (seen ++ [sensor]) (betterOf typeId minId best sensor) := by
  rw [betterOf]
  split
  · next htake =>
    refine ⟨by simpa using htake.1, ?_, by simp⟩
    intro b hb other hother hge
    cases hb
    rcases List.mem_append.mp hother with hseen | hnew
    · cases hbest : best with
      | none => exact absurd hge (UInt16.not_le.mpr (h.below hbest other hseen))
      | some b =>
        have hbetter := UInt16.lt_of_lt_of_le (htake.2 b hbest) (h.least b hbest other hseen hge)
        exact UInt16.le_of_lt hbetter
    · rw [List.mem_singleton.mp hnew]
      exact UInt16.le_refl _
  · next hskip =>
    rw [not_and] at hskip
    refine ⟨fun b hb => ⟨List.mem_append_left _ (h.mem b hb).1, (h.mem b hb).2⟩, ?_, ?_⟩
    · intro b hb other hother hge
      rcases List.mem_append.mp hother with hseen | hnew
      · exact h.least b hb other hseen hge
      · rw [List.mem_singleton.mp hnew] at hge ⊢
        by_contra hworse
        apply hskip hge
        intro b' hb'
        rw [Option.mem_unique hb' hb]
        exact UInt16.not_le.mp hworse
    · intro hnone other hother
      rcases List.mem_append.mp hother with hseen | hnew
      · exact h.below hnone other hseen
      · rw [List.mem_singleton.mp hnew]
        by_contra hge
        exact hskip (UInt16.not_lt.mp hge) (by simp [hnone])

theorem IsBest.foldl {seen : List σ} {best : Option σ} (h : IsBest typeId minId seen best)
    (array : List σ) :
    IsBest typeId minId (seen ++ array) (array.foldl (betterOf typeId minId) best) := by
  induction array generalizing seen best with
  | nil => simpa using h
  | cons sensor array ih => simpa using ih (h.step sensor)

theorem isBest_bestFrom (array : List σ) : IsBest typeId minId array (bestFrom typeId minId array) :=
  IsBest.nil.foldl array

end Round

section Rounds

variable {typeId} {array list : List σ} {bound : Nat}

/-- `min_id` behind the first `j` sensors of the list. -/
def minIdAt (typeId : σ → UInt16) (list : List σ) : Nat → UInt16
  | 0 => 0
  | j + 1 => (list[j]?.map typeId).getD 0 + 1

theorem minIdAt_append {j : Nat} (hj : j ≤ list.length) (rest : List σ) :
    minIdAt typeId (list ++ rest) j = minIdAt typeId list j := by
  cases j with
  | zero => rfl
  | succ j => rw [minIdAt, minIdAt, List.getElem?_append_left hj]

/-- The list after some rounds: it holds the sensors with the smallest ids, which are the ids of the
array below `bound`. -/
structure Linked (typeId : σ → UInt16) (array list : List σ) (bound : Nat) : Prop where
  sorted : list.Pairwise fun a b => typeId a < typeId b
  subset : ∀ sensor ∈ list, sensor ∈ array
  below : ∀ sensor ∈ list, (typeId sensor).toNat < bound
  complete : ∀ sensor ∈ array, (typeId sensor).toNat < bound → typeId sensor ∈ list.map typeId
  best : ∀ j < list.length, bestFrom typeId (minIdAt typeId list j) array = list[j]?

theorem Linked.start : Linked typeId array [] 0 :=
  ⟨.nil, by simp, by simp, by simp, by simp⟩

theorem Linked.nodup (h : Linked typeId array list bound) : (list.map typeId).Nodup := by
  rw [List.Nodup, List.pairwise_map]
  exact h.sorted.imp fun hlt => UInt16.ne_of_lt hlt

theorem Linked.distinct (h : Linked typeId array list bound) : list.Nodup := h.nodup.of_map

theorem Linked.lists (h : Linked typeId array list bound)
    (hall : ∀ sensor ∈ array, (typeId sensor).toNat < bound) : ListsSensors typeId array list := by
  have hcomplete : ∀ sensor ∈ array, typeId sensor ∈ list.map typeId :=
    fun sensor hsensor => h.complete sensor hsensor (hall sensor hsensor)
  refine ⟨h.sorted, h.subset, hcomplete, fun x => ?_⟩
  rw [sensorGet, List.find?_isSome]
  simp only [decide_eq_true_eq, List.mem_map]
  constructor
  · rintro ⟨sensor, hsensor, hx⟩
    exact ⟨sensor, h.subset sensor hsensor, hx⟩
  · rintro ⟨sensor, hsensor, rfl⟩
    simpa using hcomplete sensor hsensor

theorem Linked.step (h : Linked typeId array list bound) {minId : UInt16}
    (hbound : minId.toNat = bound) (hminId : minId = minIdAt typeId list list.length)
    {best : σ} (hbest : bestFrom typeId minId array = some best) :
    best ∉ list ∧ Linked typeId array (list ++ [best]) ((typeId best).toNat + 1) := by
  have hround : IsBest typeId minId array (bestFrom typeId minId array) := isBest_bestFrom array
  rw [hbest] at hround
  obtain ⟨hmem, hge⟩ := hround.mem best rfl
  have hge' : bound ≤ (typeId best).toNat := hbound ▸ UInt16.le_iff_toNat_le.mp hge
  have hnew : best ∉ list := fun hold => absurd (h.below best hold) (by omega)
  refine ⟨hnew, ?_, ?_, ?_, ?_, ?_⟩
  · rw [List.pairwise_append]
    refine ⟨h.sorted, List.pairwise_singleton _ _, fun a ha b hb => ?_⟩
    have hlt := h.below a ha
    rw [List.mem_singleton.mp hb, UInt16.lt_iff_toNat_lt]
    omega
  · intro sensor hsensor
    rcases List.mem_append.mp hsensor with hold | hlast
    · exact h.subset sensor hold
    · rwa [List.mem_singleton.mp hlast]
  · intro sensor hsensor
    rcases List.mem_append.mp hsensor with hold | hlast
    · have hlt := h.below sensor hold
      omega
    · rw [List.mem_singleton.mp hlast]
      exact Nat.lt_succ_self _
  · intro sensor hsensor hlt
    rw [List.map_append, List.mem_append]
    by_cases hold : (typeId sensor).toNat < bound
    · exact .inl (h.complete sensor hsensor hold)
    · have hle := UInt16.le_iff_toNat_le.mp (hround.least best rfl sensor hsensor
        (UInt16.le_iff_toNat_le.mpr (by omega)))
      have hsame : typeId sensor = typeId best := UInt16.toNat_inj.mp (by omega)
      exact .inr (by simp [hsame])
  · intro j hj
    rw [List.length_append, List.length_singleton] at hj
    rw [minIdAt_append (by omega)]
    rcases Nat.lt_succ_iff_lt_or_eq.mp hj with hold | rfl
    · rw [h.best j hold, List.getElem?_append_left hold]
    · rw [← hminId, hbest, List.getElem?_concat_length]

theorem Linked.full (h : Linked typeId array list bound) (hlength : list.length = array.length) :
    (array.map typeId).Nodup ∧ ∀ sensor ∈ array, (typeId sensor).toNat < bound := by
  have hsubset : list.map typeId ⊆ array.map typeId := by
    intro x hx
    obtain ⟨sensor, hsensor, rfl⟩ := List.mem_map.mp hx
    exact List.mem_map_of_mem (h.subset sensor hsensor)
  have hperm : (list.map typeId).Perm (array.map typeId) := by
    apply (h.nodup.subperm hsubset).perm_of_length_le
    simp [hlength]
  refine ⟨hperm.nodup_iff.mp h.nodup, fun sensor hsensor => ?_⟩
  have hlisted := hperm.mem_iff.mpr (List.mem_map_of_mem (f := typeId) hsensor)
  obtain ⟨other, hother, hid⟩ := List.mem_map.mp hlisted
  rw [← hid]
  exact h.below other hother

/-- A list of all sensors has one node for every id. -/
theorem Linked.length_eq (h : Linked typeId array list bound)
    (hall : ∀ sensor ∈ array, (typeId sensor).toNat < bound) :
    list.length = (array.map typeId).dedup.length := by
  have hperm : (list.map typeId).Perm (array.map typeId).dedup := by
    rw [List.perm_ext_iff_of_nodup h.nodup (List.nodup_dedup _)]
    intro x
    rw [List.mem_dedup]
    constructor
    · intro hx
      obtain ⟨sensor, hsensor, rfl⟩ := List.mem_map.mp hx
      exact List.mem_map_of_mem (h.subset sensor hsensor)
    · intro hx
      obtain ⟨sensor, hsensor, rfl⟩ := List.mem_map.mp hx
      exact h.complete sensor hsensor (hall sensor hsensor)
  simpa using hperm.length_eq

/-- A list that ends early lacks the last id. -/
theorem Linked.not_lists_take (h : Linked typeId array list bound) {j : Nat} (hj : j < list.length) :
    ¬ ListsSensors typeId array (list.take j) := by
  intro hlists
  have hmem := List.getElem_mem hj
  have hlisted := hlists.complete _ (h.subset _ hmem)
  have hmap : j < (list.map typeId).length := by rwa [List.length_map]
  rw [List.map_take, ← List.getElem_map _ (h := hmap)] at hlisted
  have hdrop : (list.map typeId)[j] ∈ (list.map typeId).drop j := by
    rw [List.drop_eq_getElem_cons hmap]
    exact List.mem_cons_self ..
  exact List.disjoint_take_drop h.nodup (Nat.le_refl j) hlisted hdrop

/-- The sensor with the id 0xFFFF is the last one, and behind it the bound is 0. -/
theorem Linked.minIdAt_length (h : Linked typeId array list 65536) (htop : 65535 ∈ array.map typeId) :
    minIdAt typeId list list.length = 0 := by
  obtain ⟨sensor, hsensor, hid⟩ := List.mem_map.mp htop
  have hlisted := h.complete sensor hsensor (typeId sensor).toNat_lt
  rw [hid] at hlisted
  obtain ⟨top, hmem, htopId⟩ := List.mem_map.mp hlisted
  obtain ⟨i, hi, rfl⟩ := List.getElem_of_mem hmem
  obtain ⟨n, hn⟩ := Nat.exists_eq_add_of_lt (Nat.zero_lt_of_lt hi)
  have hlast : i = n := by
    by_contra hne
    have hlt := List.pairwise_iff_getElem.mp h.sorted i n hi (by omega) (by omega)
    rw [htopId, UInt16.lt_iff_toNat_lt] at hlt
    have hmax := (typeId list[n]).toNat_lt
    have htopNat : (65535 : UInt16).toNat = 65535 := rfl
    omega
  subst hlast
  rw [hn, Nat.zero_add, minIdAt, List.getElem?_eq_getElem hi, Option.map_some, htopId]
  rfl

variable [DecidableEq σ] {l : LinkedChain σ}

theorem initRounds_succ {rounds : Nat} {minId : UInt16} {best : σ}
    (hbest : bestFrom typeId minId array = some best) :
    initRounds typeId array (rounds + 1) minId l =
      initRounds typeId array rounds (typeId best + 1) (l.append best) := by
  rw [initRounds, hbest]

/-- What the rounds lead to before the bound wraps: either they have ended, or the id 0xFFFF is in
the list and rounds are left that start again from 0. -/
structure Wraps (typeId : σ → UInt16) (array : List σ) (final : LinkedChain σ × Nat) (list : List σ) :
    Prop where
  linked : Linked typeId array list 65536
  top : 65535 ∈ array.map typeId
  left : list.length < array.length
  rounds : ∃ l : LinkedChain σ, l.Holds list ∧
    final = initRounds typeId array (array.length - list.length) 0 l

theorem initRounds_spec {rounds : Nat} {minId : UInt16} (h : Linked typeId array list bound)
    (hl : l.Holds list) (hbound : minId.toNat = bound)
    (hminId : minId = minIdAt typeId list list.length) (hlength : list.length + rounds = array.length) :
    (∃ sensors, (initRounds typeId array rounds minId l).1.Holds sensors ∧
        ListsSensors typeId array sensors ∧
        (65535 ∉ array.map typeId ∨ (array.map typeId).Nodup)) ∨
      ∃ sensors, Wraps typeId array (initRounds typeId array rounds minId l) sensors := by
  induction rounds generalizing list bound minId l with
  | zero =>
    obtain ⟨hnodup, hall⟩ := h.full hlength
    exact .inl ⟨list, hl, h.lists hall, .inr hnodup⟩
  | succ rounds ih =>
    cases hbest : bestFrom typeId minId array with
    | none =>
      have hbelow := (isBest_bestFrom array).below hbest
      have hall : ∀ sensor ∈ array, (typeId sensor).toNat < bound := by
        intro sensor hsensor
        rw [← hbound]
        exact UInt16.lt_iff_toNat_lt.mp (hbelow sensor hsensor)
      refine .inl ⟨list, by rwa [initRounds, hbest], h.lists hall, .inl ?_⟩
      intro htop
      obtain ⟨sensor, hsensor, hid⟩ := List.mem_map.mp htop
      have hlt := hall sensor hsensor
      have hmin := minId.toNat_lt
      have htopId : (65535 : UInt16).toNat = 65535 := rfl
      rw [hid] at hlt
      omega
    | some best =>
      obtain ⟨hnew, hlinked⟩ := h.step hbound hminId hbest
      have hmem := ((isBest_bestFrom array).mem best hbest).1
      have happended := hl.append h.distinct hnew
      have hcount : (list ++ [best]).length + rounds = array.length := by
        rw [List.length_append, List.length_singleton]
        omega
      have hminId' : typeId best + 1 = minIdAt typeId (list ++ [best]) (list ++ [best]).length := by
        rw [List.length_append, List.length_singleton, minIdAt, List.getElem?_concat_length]
        rfl
      rw [initRounds_succ hbest]
      have hlt := (typeId best).toNat_lt
      by_cases htop : (typeId best).toNat = 65535
      · have hwrap : typeId best + 1 = 0 := by
          rw [← UInt16.toNat_inj, UInt16.toNat_add, htop]
          rfl
        rw [htop] at hlinked
        have hall : ∀ sensor ∈ array, (typeId sensor).toNat < 65536 :=
          fun sensor _ => (typeId sensor).toNat_lt
        rw [hwrap]
        cases rounds with
        | zero =>
          exact .inl ⟨_, happended, hlinked.lists hall, .inr (hlinked.full hcount).1⟩
        | succ rounds =>
          refine .inr ⟨_, hlinked, ?_, by omega, _, happended, by rw [← hcount]; simp⟩
          exact List.mem_map.mpr ⟨best, hmem, UInt16.toNat_inj.mp htop⟩
      · have hone : (1 : UInt16).toNat = 1 := rfl
        have hnext : (typeId best + 1).toNat = (typeId best).toNat + 1 := by
          rw [UInt16.toNat_add]
          omega
        exact ih hlinked happended hnext hminId' hcount

/-- The sensors are linked again from the first one on. -/
theorem initRounds_again {rounds j : Nat} (h : Linked typeId array list 65536)
    (htop : minIdAt typeId list list.length = 0) (htwo : 1 < list.length) (hpos : 1 ≤ j)
    (hj : j ≤ list.length) (hl : l.Holds (list.take j)) :
    ∃ j', 1 ≤ j' ∧ j' ≤ list.length ∧ j' % list.length = (j + rounds) % list.length ∧
      (initRounds typeId array rounds (minIdAt typeId list j) l).1.Holds (list.take j') := by
  induction rounds generalizing j l with
  | zero => exact ⟨j, hpos, hj, rfl, hl⟩
  | succ rounds ih =>
    rcases Nat.lt_or_eq_of_le hj with hlt | rfl
    · have hbest := h.best j hlt
      rw [List.getElem?_eq_getElem hlt] at hbest
      have hnew : list[j] ∉ list.take j := by
        intro hmem
        have hdrop : list[j] ∈ list.drop j := by
          rw [List.drop_eq_getElem_cons hlt]
          exact List.mem_cons_self ..
        exact List.disjoint_take_drop h.distinct (Nat.le_refl j) hmem hdrop
      have happended := hl.append (h.distinct.sublist (List.take_sublist ..)) hnew
      rw [List.take_concat_get' _ _ hlt] at happended
      obtain ⟨j', hpos', hle', hmod, hfinal⟩ := ih (by omega) hlt happended
      refine ⟨j', hpos', hle', by rw [hmod]; congr 1; omega, ?_⟩
      rw [initRounds_succ hbest]
      rwa [minIdAt, List.getElem?_eq_getElem hlt] at hfinal
    · -- the bound has wrapped, and the first sensor is the best one once more
      have hbest := h.best 0 (by omega)
      rw [List.getElem?_eq_getElem (by omega)] at hbest
      rw [List.take_length] at hl
      have hne : list[list.length - 1] ≠ list[0] := by
        intro heq
        have := (List.Nodup.getElem_inj_iff h.distinct).mp heq
        omega
      have hlast : list.getLast? = some list[list.length - 1] := by
        rw [List.getLast?_eq_getElem?, List.getElem?_eq_getElem (by omega)]
      have hsplit : list = list[0] :: list.drop 1 := by
        rw [← List.drop_eq_getElem_cons (by omega)]
        rfl
      have happended : (l.append list[0]).Holds (list.take 1) := by
        have hfirst : list.take 1 = [list[0]] := by
          rw [List.take_one, List.head?_eq_getElem?, List.getElem?_eq_getElem (by omega)]
          rfl
        rw [hfirst]
        exact LinkedChain.Holds.append_first (hsplit ▸ hl) (hsplit ▸ hlast) hne
      obtain ⟨j', hpos', hle', hmod, hfinal⟩ := ih (by omega) (by omega) happended
      refine ⟨j', hpos', hle', ?_, ?_⟩
      · rw [hmod, Nat.add_comm rounds, ← Nat.add_assoc, Nat.add_assoc, Nat.add_mod_left]
      · rw [htop]
        rw [minIdAt] at hbest
        rw [initRounds_succ hbest]
        rwa [minIdAt, List.getElem?_eq_getElem (by omega)] at hfinal

theorem initRounds_loops {rounds : Nat} {sensor : σ} (hbest : bestFrom typeId 0 array = some sensor)
    (hwrap : typeId sensor + 1 = 0) (hl : l.Loops sensor) :
    (initRounds typeId array rounds 0 l).1.Loops sensor := by
  induction rounds generalizing l with
  | zero => exact hl
  | succ rounds ih =>
    rw [initRounds_succ hbest, hwrap]
    exact ih hl.append

end Rounds

def idCount (array : List σ) : Nat := (array.map typeId).dedup.length

/-- The id 0xFFFF is not used, or no id is used twice, or the rounds that are left over link all of
several sensors again and again. -/
def RoundsFit (array : List σ) : Prop :=
  65535 ∉ array.map typeId ∨ (array.map typeId).Nodup ∨
    1 < idCount typeId array ∧ idCount typeId array ∣ array.length

theorem Wraps.initRight_iff [DecidableEq σ] {array list : List σ}
    (h : Wraps typeId array (sensorSrvInit typeId array) list) :
    InitRight typeId array ↔ RoundsFit typeId array := by
  obtain ⟨l, hl, hfinal⟩ := h.rounds
  have hall : ∀ sensor ∈ array, (typeId sensor).toNat < 65536 := fun sensor _ => (typeId sensor).toNat_lt
  have hcount : list.length = idCount typeId array := h.linked.length_eq hall
  have hleft := h.left
  have hfit : RoundsFit typeId array ↔ 1 < list.length ∧ list.length ∣ array.length := by
    rw [hcount, RoundsFit, or_iff_right (not_not.mpr h.top), or_iff_right]
    intro hnodup
    rw [idCount, hnodup.dedup, List.length_map] at hcount
    omega
  have htop := h.linked.minIdAt_length h.top
  rw [hfit, InitRight, hfinal]
  rcases Nat.lt_trichotomy list.length 1 with hnone | hone | htwo
  · obtain rfl := List.length_eq_zero_iff.mp (Nat.lt_one_iff.mp hnone)
    obtain ⟨sensor, hsensor, -⟩ := List.mem_map.mp h.top
    exact absurd (h.linked.complete sensor hsensor (hall sensor hsensor)) List.not_mem_nil
  · obtain ⟨sensor, rfl⟩ := List.length_eq_one_iff.mp hone
    have hbest : bestFrom typeId 0 array = some sensor := h.linked.best 0 Nat.one_pos
    have hwrap : typeId sensor + 1 = 0 := htop
    obtain ⟨rounds, hrounds⟩ := Nat.exists_eq_add_of_lt (Nat.sub_pos_of_lt hleft)
    refine iff_of_false ?_ (fun hcond => absurd hcond.1 (by simp))
    rintro ⟨sensors, hpath, -⟩
    rw [hrounds, Nat.zero_add, initRounds_succ hbest, hwrap] at hpath
    exact (initRounds_loops hbest hwrap hl.append_single).not_path hpath
  · obtain ⟨j, hpos, hle, hmod, hholds⟩ := initRounds_again h.linked htop htwo (Nat.le_of_lt htwo)
      (Nat.le_refl _) ((List.take_length (l := list)).symm ▸ hl)
    rw [htop, Nat.add_sub_of_le (Nat.le_of_lt hleft)] at *
    constructor
    · rintro ⟨sensors, hpath, hlists⟩
      obtain rfl := hpath.unique hholds.path
      refine ⟨htwo, Nat.dvd_of_mod_eq_zero ?_⟩
      rcases Nat.lt_or_eq_of_le hle with hlt | rfl
      · exact absurd hlists (h.linked.not_lists_take hlt)
      · rw [← hmod, Nat.mod_self]
    · rintro ⟨-, hdvd⟩
      rw [Nat.mod_eq_zero_of_dvd hdvd] at hmod
      have hfull : j = list.length := Nat.le_antisymm hle (Nat.le_of_dvd hpos (Nat.dvd_of_mod_eq_zero hmod))
      rw [hfull, List.take_length] at hholds
      exact ⟨list, hholds.path, h.linked.lists hall⟩

/-- The server is initialised with a sorted list of all sensors exactly when the id 0xFFFF is not used,
no id is used twice, or the rounds that are left over go through several sensors to the last one. -/
theorem sensorSrvInit_right_iff [DecidableEq σ] (array : List σ) :
    InitRight typeId array ↔ RoundsFit typeId array := by
  have hspec := initRounds_spec (Linked.start : Linked typeId array [] 0) .nil rfl rfl
    (Nat.zero_add array.length)
  rcases hspec with ⟨sensors, hholds, hlists, hfit⟩ | ⟨sensors, hwraps⟩
  · exact iff_of_true ⟨sensors, hholds.path, hlists⟩ (hfit.imp_right .inl)
  · exact hwraps.initRight_iff

def duplicateIds (sensor : Fin 3) : UInt16 := if sensor = 1 then 0xFFFF else 5

/-- The third round takes the first sensor again, which loses its link. -/
theorem duplicateIds_not_right :
    (sensorSrvInit duplicateIds [0, 1, 2]).1.head = some 0 ∧
      (sensorSrvInit duplicateIds [0, 1, 2]).1.next 0 = none ∧ ¬ InitRight duplicateIds [0, 1, 2] := by
  have hnone : (sensorSrvInit duplicateIds [0, 1, 2]).1.next 0 = none := by decide
  refine ⟨by decide, hnone, ?_⟩
  rintro ⟨sensors, hpath, hlists⟩
  have hlisted : LinkedChain.Path (sensorSrvInit duplicateIds [0, 1, 2]).1.next [0]
      (sensorSrvInit duplicateIds [0, 1, 2]).1.head := ⟨by decide, hnone⟩
  obtain rfl := hpath.unique hlisted
  exact absurd (hlists.complete 1 (by decide)) (by decide)

end SdkNrf.Mesh.SensorList
