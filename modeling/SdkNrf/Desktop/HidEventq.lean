import SdkNrf.Desktop.HidItems
import SdkNrf.Framework.NodeList

/-!
# The queue of the HID events

`hid_state.c` keeps the key events of a report in a linked list while they cannot be sent.
-/

namespace SdkNrf.Desktop.HidState

structure ItemEvent where
  item : Item
  timestamp : UInt32
  deriving DecidableEq, Repr

abbrev EventNodes := List (UInt32 × ItemEvent)

structure Eventq where
  root : NodeList UInt32 ItemEvent
  len : Nat

section Code

def fuelOf (root : NodeList UInt32 ItemEvent) : Nat := root.root.length + 2

/-- The first loop of `eventq_cleanup`: the first event that is not timed out. -/
def firstValidFrom (expiration timestamp : UInt32) (root : NodeList UInt32 ItemEvent) :
    Nat → Option UInt32 → Option (Option UInt32)
  | 0, _ => none
  | _ + 1, none => some none
  | fuel + 1, some node =>
    (root.memory node).bind fun event =>
      if timestamp - event.timestamp < expiration then some (some node)
      else (root.peekNext node).bind (firstValidFrom expiration timestamp root fuel)

/-- The inner loop of `eventq_cleanup`: where the events of a usage are paired, and its position. -/
def pairFrom (root : NodeList UInt32 ItemEvent) (firstValid : Option UInt32) (usageId : UInt16) :
    Nat → Int → Option UInt32 → Nat → Option (Option UInt32 × Nat)
  | 0, _, _, _ => none
  | _ + 1, _, none, jPos => some (none, jPos)
  | fuel + 1, hitCount, some j, jPos =>
    if firstValid = some j then some (some j, (jPos + 1) % 2 ^ 32)
    else
      (root.memory j).bind fun event =>
        if usageId = event.item.usageId then
          if (hitCount + event.item.value.toInt) % 2 ^ 32 = 0 then some (some j, (jPos + 1) % 2 ^ 32)
          else (root.peekNext j).bind fun next =>
            pairFrom root firstValid usageId fuel ((hitCount + event.item.value.toInt) % 2 ^ 32) next
              ((jPos + 1) % 2 ^ 32)
        else (root.peekNext j).bind fun next =>
          pairFrom root firstValid usageId fuel hitCount next ((jPos + 1) % 2 ^ 32)

/-- The body of `eventq_cleanup` for a key down: how far the events have to be removed together. The inner
`none` is a key down without a pair. -/
def extendTo (root : NodeList UInt32 ItemEvent) (firstValid : Option UInt32) (cur : UInt32)
    (event : ItemEvent)
    (curPos : Nat) (maxfound : Option UInt32 × Nat) : Option (Option (Option UInt32 × Nat)) :=
  if 0 < event.item.value then
    (root.peekNext cur).bind fun next =>
      (pairFrom root firstValid event.item.usageId (fuelOf root) event.item.value.toInt next curPos).map
        fun j =>
          if j.1 = firstValid then none
          else if maxfound.2 < j.2 then some j else some maxfound
  else some (some maxfound)

/-- The loop of `eventq_region_purge`: the next node is read before the event is freed. -/
def purgeFrom (lastToPurge : UInt32) :
    Nat → NodeList UInt32 ItemEvent → Option UInt32 → Nat → Option (NodeList UInt32 ItemEvent × Nat)
  | 0, _, _, _ => none
  | _ + 1, root, none, cnt => some (root, cnt)
  | fuel + 1, root, some tmp, cnt =>
    (root.peekNext tmp).bind fun tmpSafe =>
      ((root.removeFirst tmp).bind (·.free tmp)).bind fun root =>
        if tmp = lastToPurge then some (root, (cnt + 1) % 2 ^ 32)
        else purgeFrom lastToPurge fuel root tmpSafe ((cnt + 1) % 2 ^ 32)

def eventqRegionPurge (eventq : Eventq) (lastToPurge : UInt32) : Option Eventq :=
  (purgeFrom lastToPurge (fuelOf eventq.root) eventq.root eventq.root.root.head? 0).map fun (root, cnt) =>
    ⟨root, (eventq.len + 2 ^ 32 - cnt) % 2 ^ 32⟩

/-- The outer loop of `eventq_cleanup`: the next node is read before the body. -/
def cleanupFrom (firstValid : Option UInt32) :
    Nat → Eventq → Option UInt32 × Nat → Option UInt32 → Nat → Option Eventq
  | 0, _, _, _, _ => none
  | _ + 1, eventq, _, none, _ => some eventq
  | fuel + 1, eventq, maxfound, some cur, curPos =>
    (eventq.root.peekNext cur).bind fun tmpSafe =>
      (eventq.root.memory cur).bind fun event =>
        (extendTo eventq.root firstValid cur event curPos maxfound).bind fun extended =>
          match extended with
          | none => some eventq
          | some maxfound =>
            if firstValid = some cur then some eventq
            else
              (if maxfound.1 = some cur then eventqRegionPurge eventq cur else some eventq).bind fun eventq =>
                cleanupFrom firstValid fuel eventq maxfound tmpSafe ((curPos + 1) % 2 ^ 32)

def eventqCleanup (expiration : UInt32) (eventq : Eventq) (timestamp : UInt32) : Option Eventq :=
  (firstValidFrom expiration timestamp eventq.root (fuelOf eventq.root) eventq.root.root.head?).bind
    fun firstValid =>
      cleanupFrom firstValid (fuelOf eventq.root) eventq (eventq.root.root.head?, 0) eventq.root.root.head? 0

end Code

/-- The queue holds these events: the nodes are allocated one by one, the values are those of
`handle_button_event`. -/
structure Eventq.Queues (eventq : Eventq) (nodes : EventNodes) : Prop extends eventq.root.Holds nodes where
  len : eventq.len = nodes.length
  nonnull : ∀ node ∈ nodes, node.1 ≠ 0
  button : ∀ node ∈ nodes, node.2.item.value = 1 ∨ node.2.item.value = -1

def usageSum (nodes : EventNodes) (u : UInt16) : Int := held (nodes.map (·.2.item)) u

/-- Every key down is followed by events that bring the sum of its usage back to zero. -/
def Paired (nodes : EventNodes) : Prop :=
  ∀ before node after, nodes = before ++ node :: after → 0 < node.2.item.value →
    ∃ mid rest, after = mid ++ rest ∧ usageSum (node :: mid) node.2.item.usageId = 0

def slice (nodes : EventNodes) (i k : Nat) : EventNodes := (nodes.take k).drop i

variable {expiration timestamp : UInt32} {nodes : EventNodes} {root : NodeList UInt32 ItemEvent}
  {eventq : Eventq} {p m v c i j k fuel : Nat} {u : UInt16}

theorem slice_succ (hi : i ≤ k) (hk : k < nodes.length) :
    slice nodes i (k + 1) = slice nodes i k ++ [nodes[k]] := by
  rw [slice, List.take_succ_eq_append_getElem hk, List.drop_append_of_le_length (by simp; omega), slice]

theorem usageSum_append_singleton (l : EventNodes) (node : UInt32 × ItemEvent) :
    usageSum (l ++ [node]) u =
      usageSum l u + if node.2.item.usageId = u then node.2.item.value.toInt else 0 := by
  rw [usageSum, List.map_append, List.map_cons, List.map_nil, held_append_cons]
  simp [usageSum, held]

theorem usageSum_slice_succ (hi : i ≤ k) (hk : k < nodes.length) :
    usageSum (slice nodes i (k + 1)) u = usageSum (slice nodes i k) u +
      if nodes[k].2.item.usageId = u then nodes[k].2.item.value.toInt else 0 := by
  rw [slice_succ hi hk, usageSum_append_singleton]

theorem usageSum_slice_self (hc : c < nodes.length) :
    usageSum (slice nodes c (c + 1)) nodes[c].2.item.usageId = nodes[c].2.item.value.toInt := by
  have hempty : slice nodes c c = [] := List.drop_eq_nil_of_le (by simp)
  rw [usageSum_slice_succ le_rfl hc, hempty]
  simp [usageSum, held]

theorem abs_usageSum_le (h : ∀ node ∈ nodes, node.2.item.value = 1 ∨ node.2.item.value = -1) (u : UInt16) :
    |usageSum nodes u| ≤ nodes.length := by
  induction nodes with
  | nil => simp [usageSum, held]
  | cons node nodes ih =>
    rw [List.forall_mem_cons] at h
    have htail := ih h.2
    have hcons : usageSum (node :: nodes) u =
        (if node.2.item.usageId = u then node.2.item.value.toInt else 0) + usageSum nodes u := by
      rw [usageSum, List.map_cons]
      by_cases heq : node.2.item.usageId = u <;> simp [held, heq, usageSum]
    have hvalue : |if node.2.item.usageId = u then node.2.item.value.toInt else 0| ≤ 1 := by
      rcases h.1 with hv | hv <;> rw [hv] <;> split <;> decide
    rw [hcons, List.length_cons, Nat.cast_add_one]
    exact (abs_add_le _ _).trans (by omega)

theorem usageSum_eq_zero (h : ∀ node ∈ nodes, node.2.item.value = 1 ∨ node.2.item.value = -1)
    (hlen : nodes.length < 2 ^ 32) (hzero : usageSum nodes u % 2 ^ 32 = 0) : usageSum nodes u = 0 := by
  have hbound := abs_usageSum_le h u
  rw [abs_le] at hbound
  omega

theorem Eventq.Queues.length_lt (h : eventq.Queues nodes) : nodes.length < 2 ^ 32 := by
  have hnodup : ((0 : UInt32) :: nodes.map Prod.fst).Nodup := by
    rw [List.nodup_cons]
    refine ⟨fun hmem => ?_, h.distinct⟩
    obtain ⟨node, hnode, hzero⟩ := List.mem_map.mp hmem
    exact h.nonnull node hnode hzero
  have hfin : (((0 : UInt32) :: nodes.map Prod.fst).map UInt32.toFin).Nodup :=
    hnodup.map fun a b hab => UInt32.toFin_inj.mp hab
  have hcard := hfin.length_le_card
  simpa [UInt32.size] using hcard

theorem firstValidFrom_spec (h : root.Holds nodes) (expiration timestamp : UInt32) (hi : i ≤ nodes.length)
    (hfuel : nodes.length < i + fuel) :
    ∃ v, firstValidFrom expiration timestamp root fuel (NodeList.addrAt nodes i) =
        some (NodeList.addrAt nodes v) ∧ v ≤ nodes.length ∧
      ∀ k, (hk : k < nodes.length) → i ≤ k → k < v → expiration ≤ timestamp - nodes[k].2.timestamp := by
  induction fuel generalizing i with
  | zero => omega
  | succ fuel ih =>
    rcases hi.eq_or_lt with rfl | hlt
    · refine ⟨nodes.length, ?_, le_rfl, fun k _ _ _ => by omega⟩
      simp [NodeList.addrAt, firstValidFrom]
    · have hplace := NodeList.Holds.at_place (p := 0) h (Nat.zero_le i) hlt
      rw [NodeList.addrAt_of_lt hlt, firstValidFrom, hplace.1, Option.bind_some]
      by_cases hold : timestamp - nodes[i].2.timestamp < expiration
      · rw [if_pos hold]
        exact ⟨i, by rw [NodeList.addrAt_of_lt hlt], hlt.le, fun k _ _ _ => by omega⟩
      · rw [if_neg hold, hplace.2, Option.bind_some]
        obtain ⟨v, hrun, hv, hbefore⟩ := ih (i := i + 1) (by omega) (by omega)
        refine ⟨v, hrun, hv, fun k hk hik hkv => ?_⟩
        rcases hik.eq_or_lt with rfl | hik
        · exact UInt32.not_lt.mp hold
        · exact hbefore k hk hik hkv

structure PairEnd (nodes : EventNodes) (v c j k : Nat) (u : UInt16) (res : Option UInt32 × Nat) : Prop where
  from_le : j ≤ k
  le : k ≤ nodes.length
  at_eq : res.1 = NodeList.addrAt nodes k
  passed : ∀ i, j ≤ i → i < k → i ≠ v
  pair : k ≠ v → k < nodes.length → res.2 = k ∧ usageSum (slice nodes c (k + 1)) u % 2 ^ 32 = 0

theorem PairEnd.later {res : Option UInt32 × Nat} (h : PairEnd nodes v c (j + 1) k u res) (hj : j ≠ v) :
    PairEnd nodes v c j k u res where
  from_le := by have := h.from_le; omega
  le := h.le
  at_eq := h.at_eq
  passed := fun i hji hik => by
    rcases hji.eq_or_lt with rfl | hlt
    · exact hj
    · exact h.passed i hlt hik
  pair := h.pair

theorem pairFrom_spec (fuel : Nat) (hdistinct : (nodes.map Prod.fst).Nodup)
    (h : root.Holds (nodes.drop p)) (hlen : nodes.length < 2 ^ 32) (hpj : p ≤ j)
    (hcj : c < j) (hj : j ≤ nodes.length) (hfuel : nodes.length < j + fuel)
    {hit : Int} (hhit : hit ≡ usageSum (slice nodes c j) u [ZMOD 2 ^ 32]) :
    ∃ k res, pairFrom root (NodeList.addrAt nodes v) u fuel hit (NodeList.addrAt nodes j) (j - 1) = some res ∧
      PairEnd nodes v c j k u res := by
  induction fuel generalizing j hit with
  | zero => omega
  | succ fuel ih =>
    rcases hj.eq_or_lt with rfl | hlt
    · refine ⟨nodes.length, (none, nodes.length - 1), ?_, le_rfl, le_rfl, ?_, fun i _ _ => by omega,
        fun _ h => absurd h (lt_irrefl _)⟩
      · simp [NodeList.addrAt, pairFrom]
      · simp [NodeList.addrAt]
    · have hpos : (j - 1 + 1) % 2 ^ 32 = j := by omega
      have hplace := h.at_place hpj hlt
      have hsum := usageSum_slice_succ (u := u) hcj.le hlt
      rw [NodeList.addrAt_of_lt hlt, pairFrom, hpos]
      by_cases hfirst : NodeList.addrAt nodes v = some nodes[j].1
      · rw [if_pos hfirst]
        refine ⟨j, (some nodes[j].1, j), rfl, le_rfl, hlt.le, ?_, fun i _ _ => by omega, fun hne _ => ?_⟩
        · rw [NodeList.addrAt_of_lt hlt]
        · rw [← NodeList.addrAt_of_lt hlt] at hfirst
          exact absurd (NodeList.addrAt_inj hdistinct hlt hfirst.symm) hne
      · have hne : j ≠ v := by
          rintro rfl
          exact hfirst (NodeList.addrAt_of_lt hlt)
        rw [if_neg hfirst, hplace.1, Option.bind_some, hplace.2, Option.bind_some, Option.bind_some]
        by_cases hu : u = nodes[j].2.item.usageId
        · have hstep : hit + nodes[j].2.item.value.toInt ≡ usageSum (slice nodes c (j + 1)) u
            [ZMOD 2 ^ 32] := by
            rw [hsum, if_pos hu.symm]
            exact hhit.add_right _
          rw [if_pos hu]
          by_cases hzero : (hit + nodes[j].2.item.value.toInt) % 2 ^ 32 = 0
          · rw [if_pos hzero]
            refine ⟨j, (some nodes[j].1, j), rfl, le_rfl, hlt.le, ?_, fun i _ _ => by omega,
              fun _ _ => ⟨rfl, ?_⟩⟩
            · rw [NodeList.addrAt_of_lt hlt]
            · rw [← hzero]
              exact hstep.symm
          · rw [if_neg hzero]
            obtain ⟨k, res, hrun, hend⟩ := ih (j := j + 1) (by omega) (by omega) hlt (by omega)
              ((Int.mod_modEq _ _).trans hstep)
            exact ⟨k, res, hrun, hend.later hne⟩
        · have hstep : hit ≡ usageSum (slice nodes c (j + 1)) u [ZMOD 2 ^ 32] := by
            rw [hsum, if_neg (Ne.symm hu), Int.add_zero]
            exact hhit
          rw [if_neg hu]
          obtain ⟨k, res, hrun, hend⟩ := ih (j := j + 1) (by omega) (by omega) hlt (by omega) hstep
          exact ⟨k, res, hrun, hend.later hne⟩

theorem purgeFrom_spec (fuel : Nat) (hdistinct : (nodes.map Prod.fst).Nodup) (h : root.Holds (nodes.drop p))
    (hlen : nodes.length < 2 ^ 32) (hpm : p ≤ m) (hm : m < nodes.length) (hfuel : m < p + fuel) {cnt : Nat}
    (hcnt : cnt ≤ p) :
    ∃ root', purgeFrom nodes[m].1 fuel root (NodeList.addrAt nodes p) cnt = some (root', cnt + (m + 1 - p)) ∧
      root'.Holds (nodes.drop (m + 1)) := by
  induction fuel generalizing p root cnt with
  | zero => omega
  | succ fuel ih =>
    have hp : p < nodes.length := by omega
    have hplace := h.at_place le_rfl hp
    rw [List.drop_eq_getElem_cons hp] at h
    obtain ⟨root', hpop, hholds, -⟩ := h.pop
    rw [NodeList.addrAt_of_lt hp, purgeFrom, hplace.2, Option.bind_some, hpop, Option.bind_some,
      Nat.mod_eq_of_lt (by omega)]
    by_cases hlast : nodes[p].1 = nodes[m].1
    · have hpm' : p = m := by
        apply NodeList.addrAt_inj hdistinct hp
        rw [NodeList.addrAt_of_lt hp, NodeList.addrAt_of_lt hm, hlast]
      subst hpm'
      rw [if_pos hlast]
      exact ⟨root', by rw [Nat.add_sub_cancel_left], hholds⟩
    · have hne : p ≠ m := by
        rintro rfl
        exact hlast rfl
      rw [if_neg hlast]
      obtain ⟨root'', hrun, hrest⟩ := ih hholds (by omega) (by omega) (by omega : cnt + 1 ≤ p + 1)
      refine ⟨root'', ?_, hrest⟩
      rw [hrun]
      congr 2
      omega

theorem fuelOf_eq (h : root.Holds nodes) : fuelOf root = nodes.length + 2 := by
  rw [fuelOf, h.root, List.length_map]

theorem head_eq (h : root.Holds (nodes.drop p)) : root.root.head? = NodeList.addrAt nodes p := by
  rw [h.root, List.head?_map, List.head?_drop]
  rfl

theorem eventqRegionPurge_spec (hdistinct : (nodes.map Prod.fst).Nodup) (hlen : nodes.length < 2 ^ 32)
    (h : eventq.root.Holds (nodes.drop p)) (hcount : eventq.len = nodes.length - p) (hpm : p ≤ m)
    (hm : m < nodes.length) :
    ∃ eventq', eventqRegionPurge eventq nodes[m].1 = some eventq' ∧
      eventq'.root.Holds (nodes.drop (m + 1)) ∧ eventq'.len = nodes.length - (m + 1) := by
  have hfuel := fuelOf_eq h
  rw [List.length_drop] at hfuel
  obtain ⟨root', hrun, hholds⟩ := purgeFrom_spec (fuelOf eventq.root) hdistinct h hlen hpm hm
    (by omega) (Nat.zero_le p)
  refine ⟨⟨root', (eventq.len + 2 ^ 32 - (0 + (m + 1 - p))) % 2 ^ 32⟩, ?_, hholds, ?_⟩
  · rw [eventqRegionPurge, head_eq h, hrun]
    rfl
  · rw [hcount]
    change (nodes.length - p + 2 ^ 32 - (0 + (m + 1 - p))) % 2 ^ 32 = nodes.length - (m + 1)
    omega

/-- The key downs from one place to another are paired before `m`, or at it. -/
def PairedBy (nodes : EventNodes) (p c m : Nat) : Prop :=
  ∀ i, (hi : i < nodes.length) → p ≤ i → i < c → 0 < nodes[i].2.item.value →
    ∃ k, i < k ∧ k ≤ m ∧ k < nodes.length ∧ usageSum (slice nodes i (k + 1)) nodes[i].2.item.usageId = 0

/-- The first `p` events are old enough, and none of their key downs misses its pair. -/
structure Removable (expiration timestamp : UInt32) (nodes : EventNodes) (p : Nat) : Prop where
  old : ∀ i, (hi : i < nodes.length) → i < p → expiration ≤ timestamp - nodes[i].2.timestamp
  paired : ∀ i, (hi : i < nodes.length) → i < p → 0 < nodes[i].2.item.value →
    ∃ k, i < k ∧ k < p ∧ usageSum (slice nodes i (k + 1)) nodes[i].2.item.usageId = 0

/-- What the outer loop has at its place `c`: `p` events have been removed, and `maxfound` is at `m`. -/
structure Scanned (nodes : EventNodes) (eventq : Eventq) (maxfound : Option UInt32 × Nat)
    (p c m : Nat) : Prop where
  holds : eventq.root.Holds (nodes.drop p)
  len : eventq.len = nodes.length - p
  removed_le : p ≤ c
  maxfound_eq : maxfound = (NodeList.addrAt nodes m, m)
  paired : PairedBy nodes p c m

theorem slice_sum_eq_zero (hqueue : ∀ node ∈ nodes, node.2.item.value = 1 ∨ node.2.item.value = -1)
    (hlen : nodes.length < 2 ^ 32) (h : usageSum (slice nodes i k) u % 2 ^ 32 = 0) :
    usageSum (slice nodes i k) u = 0 := by
  apply usageSum_eq_zero _ _ h
  · exact fun node hmem => hqueue node (List.mem_of_mem_take (List.mem_of_mem_drop hmem))
  · simp only [slice, List.length_drop, List.length_take]
    omega

theorem PairedBy.mono (h : PairedBy nodes p c m) (hmk : m ≤ k) : PairedBy nodes p c k := by
  intro i hi hpi hic hpos
  obtain ⟨k', hik, hle, hrest⟩ := h i hi hpi hic hpos
  exact ⟨k', hik, hle.trans hmk, hrest⟩

theorem PairedBy.step (h : PairedBy nodes p c m) (hc : c < nodes.length)
    (hcur : 0 < nodes[c].2.item.value →
      ∃ k, c < k ∧ k ≤ m ∧ k < nodes.length ∧ usageSum (slice nodes c (k + 1)) nodes[c].2.item.usageId = 0) :
    PairedBy nodes p (c + 1) m := by
  intro i hi hpi hic hpos
  rcases (Nat.lt_succ_iff.mp hic).eq_or_lt with rfl | hlt
  · exact hcur hpos
  · exact h i hi hpi hlt hpos

theorem extendTo_spec (hqueue : ∀ node ∈ nodes, node.2.item.value = 1 ∨ node.2.item.value = -1)
    (hdistinct : (nodes.map Prod.fst).Nodup) (hlen : nodes.length < 2 ^ 32) {maxfound : Option UInt32 × Nat}
    (h : Scanned nodes eventq maxfound p c m) (hc : c < nodes.length) (hcv : c ≤ v) (hv : v ≤ nodes.length) :
    ∃ extended, extendTo eventq.root
        (NodeList.addrAt nodes v) nodes[c].1 nodes[c].2 c maxfound = some extended ∧
      (c < v → ∀ maxfound', extended = some maxfound' →
        ∃ m', maxfound' = (NodeList.addrAt nodes m', m') ∧ PairedBy nodes p (c + 1) m') := by
  have hpc := h.removed_le
  rw [extendTo]
  by_cases hdown : 0 < nodes[c].2.item.value
  · have hfuel := fuelOf_eq h.holds
    rw [List.length_drop] at hfuel
    obtain ⟨k, res, hrun, hend⟩ := pairFrom_spec (v := v) (c := c) (j := c + 1)
      (u := nodes[c].2.item.usageId) (fuelOf eventq.root) hdistinct h.holds hlen (by omega)
        (by omega) (by omega) (by omega)
      (by rw [usageSum_slice_self hc])
    rw [Nat.add_sub_cancel] at hrun
    rw [if_pos hdown, (h.holds.at_place hpc hc).2, Option.bind_some, hrun, Option.map_some]
    refine ⟨_, rfl, fun hlt maxfound' heq => ?_⟩
    by_cases hfirst : res.1 = NodeList.addrAt nodes v
    · rw [if_pos hfirst] at heq
      exact absurd heq (by simp)
    · have hkv : k ≠ v := by
        rintro rfl
        exact hfirst hend.at_eq
      have hlast : k < v := by
        by_contra hge
        exact hend.passed v hlt (by omega) rfl
      obtain ⟨hpos, hzero⟩ := hend.pair hkv (by omega)
      have hpair : c < k ∧ k < nodes.length ∧ usageSum (slice nodes c (k + 1)) nodes[c].2.item.usageId = 0 :=
        ⟨hend.from_le, by omega, slice_sum_eq_zero hqueue hlen hzero⟩
      rw [if_neg hfirst, hpos] at heq
      by_cases hfar : maxfound.2 < k
      · rw [if_pos hfar, Option.some_inj] at heq
        have hmk : m ≤ k := by
          rw [h.maxfound_eq] at hfar
          exact hfar.le
        refine ⟨k, ?_, (h.paired.mono hmk).step hc fun _ => ⟨k, hpair.1, le_rfl, hpair.2⟩⟩
        rw [← heq, ← hend.at_eq, ← hpos]
      · rw [if_neg hfar, Option.some_inj] at heq
        rw [h.maxfound_eq] at hfar
        refine ⟨m, ?_, h.paired.step hc fun _ => ⟨k, hpair.1, not_lt.mp hfar, hpair.2⟩⟩
        rw [← heq, h.maxfound_eq]
  · rw [if_neg hdown]
    refine ⟨some maxfound, rfl, fun _ maxfound' heq => ⟨m, ?_, h.paired.step hc (absurd · hdown)⟩⟩
    rw [← h.maxfound_eq]
    exact (Option.some_inj.mp heq).symm

theorem Removable.purge (h : Removable expiration timestamp nodes p)
    (hold : ∀ i, (hi : i < nodes.length) → i < v → expiration ≤ timestamp - nodes[i].2.timestamp)
    (hcv : c < v)
    (hpc : p ≤ c) (hpaired : PairedBy nodes p (c + 1) c) : Removable expiration timestamp nodes (c + 1) where
  old := fun i hi hic => hold i hi (by omega)
  paired := fun i hi hic hpos => by
    by_cases hpi : p ≤ i
    · obtain ⟨k, hik, hkc, -, hzero⟩ := hpaired i hi hpi hic hpos
      exact ⟨k, hik, Nat.lt_succ_of_le hkc, hzero⟩
    · obtain ⟨k, hik, hkp, hzero⟩ := h.paired i hi (not_le.mp hpi) hpos
      exact ⟨k, hik, by omega, hzero⟩

theorem cleanupFrom_spec (fuel : Nat)
    (hqueue : ∀ node ∈ nodes, node.2.item.value = 1 ∨ node.2.item.value = -1)
    (hdistinct : (nodes.map Prod.fst).Nodup) (hlen : nodes.length < 2 ^ 32) (hv : v ≤ nodes.length)
    (hold : ∀ i, (hi : i < nodes.length) → i < v → expiration ≤ timestamp - nodes[i].2.timestamp)
    {maxfound : Option UInt32 × Nat} (h : Scanned nodes eventq maxfound p c m) (hcv : c ≤ v)
    (hremovable : Removable expiration timestamp nodes p) (hfuel : nodes.length < c + fuel) :
    ∃ eventq' p', cleanupFrom (NodeList.addrAt nodes v) fuel eventq maxfound (NodeList.addrAt nodes c) c =
        some eventq' ∧ p' ≤ nodes.length ∧ eventq'.root.Holds (nodes.drop p') ∧
      eventq'.len = nodes.length - p' ∧ Removable expiration timestamp nodes p' := by
  have hpc := h.removed_le
  induction fuel generalizing eventq maxfound p c m with
  | zero => omega
  | succ fuel ih =>
    have hstop : p ≤ nodes.length ∧ eventq.root.Holds (nodes.drop p) ∧ eventq.len = nodes.length - p ∧
        Removable expiration timestamp nodes p := ⟨by omega, h.holds, h.len, hremovable⟩
    by_cases hc : c < nodes.length
    · obtain ⟨extended, hrun, hextended⟩ := extendTo_spec (v := v) hqueue hdistinct hlen h hc hcv hv
      have hplace := h.holds.at_place hpc hc
      rw [NodeList.addrAt_of_lt hc, cleanupFrom, hplace.2, Option.bind_some, hplace.1, Option.bind_some, hrun,
        Option.bind_some]
      cases extended with
      | none => exact ⟨eventq, p, rfl, hstop⟩
      | some maxfound' =>
        by_cases hfirst : NodeList.addrAt nodes v = some nodes[c].1
        · refine ⟨eventq, p, ?_, hstop⟩
          simp only [if_pos hfirst]
        · have hlt : c < v := by
            apply lt_of_le_of_ne hcv
            rintro rfl
            exact hfirst (NodeList.addrAt_of_lt hc)
          obtain ⟨m', rfl, hpaired⟩ := hextended hlt maxfound' rfl
          simp only [if_neg hfirst, Nat.mod_eq_of_lt (by omega : c + 1 < 2 ^ 32)]
          by_cases hpurge : NodeList.addrAt nodes m' = some nodes[c].1
          · rw [← NodeList.addrAt_of_lt hc] at hpurge
            obtain rfl := NodeList.addrAt_inj hdistinct hc hpurge.symm
            obtain ⟨eventq', hpurged, hholds, hlen'⟩ :=
              eventqRegionPurge_spec hdistinct hlen h.holds h.len hpc hc
            rw [NodeList.addrAt_of_lt hc, if_pos rfl, hpurged, Option.bind_some]
            refine ih ⟨hholds, hlen', le_rfl, by rw [NodeList.addrAt_of_lt hc], ?_⟩ (by omega)
              (hremovable.purge hold hlt hpc hpaired) (by omega) le_rfl
            exact fun i _ hpi hic _ => by omega
          · rw [if_neg hpurge, Option.bind_some]
            exact ih ⟨h.holds, h.len, by omega, rfl, hpaired⟩ (by omega) hremovable (by omega) (by omega)
    · refine ⟨eventq, p, ?_, hstop⟩
      simp [NodeList.addrAt, cleanupFrom, not_lt.mp hc]

theorem Removable.paired_take (h : Removable expiration timestamp nodes p) (hp : p ≤ nodes.length) :
    Paired (nodes.take p) := by
  intro before node after heq hdown
  have hlength : before.length < p := by
    have hl := congrArg List.length heq
    simp only [List.length_take, List.length_append, List.length_cons] at hl
    omega
  have hi : before.length < nodes.length := by omega
  have hnode : nodes[before.length] = node := by
    have hget := congrArg (·[before.length]?) heq
    simpa [List.getElem?_take_of_lt hlength, hi] using hget
  subst hnode
  obtain ⟨k, hik, hkp, hzero⟩ := h.paired before.length hi hlength hdown
  refine ⟨after.take (k - before.length), after.drop (k - before.length),
    (List.take_append_drop _ _).symm, ?_⟩
  have htake : nodes.take (k + 1) = (nodes.take p).take (k + 1) := by
    rw [List.take_take, Nat.min_eq_left (by omega)]
  have hslice : slice nodes before.length (k + 1) = nodes[before.length] :: after.take
    (k - before.length) := by
    rw [slice, htake, heq, List.take_append, List.drop_append_of_le_length (by simp; omega),
      List.take_of_length_le (by omega), List.drop_length, List.nil_append,
      show k + 1 - before.length = (k - before.length) + 1 by omega, List.take_succ_cons]
  rw [← hslice]
  exact hzero

/-- `eventq_cleanup` takes removable events from the front of the queue. -/
theorem eventqCleanup_spec (expiration timestamp : UInt32) (h : eventq.Queues nodes) :
    ∃ eventq' p, eventqCleanup expiration eventq timestamp = some eventq' ∧ p ≤ nodes.length ∧
      eventq'.Queues (nodes.drop p) ∧ Removable expiration timestamp nodes p := by
  have hfuel := fuelOf_eq h.toHolds
  have hlen := h.length_lt
  have hhead : eventq.root.root.head? = NodeList.addrAt nodes 0 := head_eq (p := 0) h.toHolds
  obtain ⟨v, hfirst, hv, hold⟩ := firstValidFrom_spec h.toHolds expiration timestamp (Nat.zero_le _)
    (by omega : nodes.length < 0 + fuelOf eventq.root)
  have hscanned : Scanned nodes eventq (NodeList.addrAt nodes 0, 0) 0 0 0 :=
    ⟨h.toHolds, h.len, le_rfl, rfl, fun i _ _ hi _ => absurd hi (Nat.not_lt_zero i)⟩
  have hnone : Removable expiration timestamp nodes 0 :=
    ⟨fun i _ hi => absurd hi (Nat.not_lt_zero i), fun i _ hi _ => absurd hi (Nat.not_lt_zero i)⟩
  obtain ⟨eventq', p, hrun, hp, hholds, hcount, hremovable⟩ := cleanupFrom_spec
    (fuelOf eventq.root) h.button h.distinct hlen hv
    (fun i hi hiv => hold i hi (Nat.zero_le i) hiv) hscanned (Nat.zero_le v) hnone (by omega)
  refine ⟨eventq', p, ?_, hp, ⟨hholds, ?_, ?_, ?_⟩, hremovable⟩
  · rw [eventqCleanup, hhead, hfirst, Option.bind_some, hrun]
  · rw [hcount, List.length_drop]
  · exact fun node hmem => h.nonnull node (List.mem_of_mem_drop hmem)
  · exact fun node hmem => h.button node (List.mem_of_mem_drop hmem)

/-- `eventq_cleanup` reads no event that it has freed. It leaves the end of the queue; what it removes is
old, and no removed key down is without the events that pair it. -/
theorem eventqCleanup_paired (expiration timestamp : UInt32) (h : eventq.Queues nodes) :
    ∃ eventq' removed kept, eventqCleanup expiration eventq timestamp = some eventq' ∧
      nodes = removed ++ kept ∧ eventq'.Queues kept ∧
      (∀ node ∈ removed, expiration ≤ timestamp - node.2.timestamp) ∧ Paired removed := by
  obtain ⟨eventq', p, hrun, hp, hqueues, hremovable⟩ := eventqCleanup_spec expiration timestamp h
  refine ⟨eventq', nodes.take p, nodes.drop p, hrun, (List.take_append_drop p nodes).symm, hqueues,
    ?_, hremovable.paired_take hp⟩
  intro node hmem
  obtain ⟨i, hi, rfl⟩ := List.mem_take_iff_getElem.mp hmem
  exact hremovable.old i (by omega) (by omega)

section Press

def pressNodes : EventNodes := [(16, ⟨⟨4, 1⟩, 0⟩), (32, ⟨⟨4, -1⟩, 10⟩), (48, ⟨⟨5, 1⟩, 600⟩)]

def pressEventq : Eventq where
  root := ⟨pressNodes.map Prod.fst, fun a => (pressNodes.find? (·.1 = a)).map Prod.snd⟩
  len := 3

theorem pressEventq_queues : pressEventq.Queues pressNodes := by
  refine ⟨⟨rfl, ?_, ?_⟩, rfl, ?_, ?_⟩ <;> simp [pressNodes, pressEventq]

example : (eventqCleanup 500 pressEventq 700).map (·.root.root) = some [48] := by decide

theorem eventqCleanup_paired_press :
    ∃ eventq' removed kept, eventqCleanup 500 pressEventq 700 = some eventq' ∧
      pressNodes = removed ++ kept ∧ eventq'.Queues kept ∧
      (∀ node ∈ removed, (500 : UInt32) ≤ 700 - node.2.timestamp) ∧ Paired removed :=
  eventqCleanup_paired 500 700 pressEventq_queues

end Press

end SdkNrf.Desktop.HidState
