import Mathlib

/-!
# Linked lists in memory

A singly-linked list of allocated nodes.
-/

namespace SdkNrf

structure NodeList (Addr α : Type) where
  root : List Addr
  memory : Addr → Option α

namespace NodeList

variable {Addr α : Type}

section Places

variable {nodes : List (Addr × α)}

def addrAt (nodes : List (Addr × α)) (i : Nat) : Option Addr := nodes[i]?.map Prod.fst

theorem addrAt_of_lt {i : Nat} (h : i < nodes.length) : addrAt nodes i = some nodes[i].1 := by
  simp [addrAt, h]

theorem addrAt_inj (hdistinct : (nodes.map Prod.fst).Nodup) {i j : Nat} (hi : i < nodes.length)
    (h : addrAt nodes i = addrAt nodes j) : i = j := by
  rw [addrAt, addrAt, ← List.getElem?_map, ← List.getElem?_map] at h
  exact (List.getElem?_inj (by simpa using hi) hdistinct).mp h

theorem drop_eq {p i : Nat} (hp : p ≤ i) (hi : i < nodes.length) :
    nodes.drop p = (nodes.drop p).take (i - p) ++ nodes[i] :: nodes.drop (i + 1) := by
  have hsplit := List.take_append_drop (i - p) (nodes.drop p)
  rw [List.drop_drop, Nat.add_sub_cancel' hp, List.drop_eq_getElem_cons hi] at hsplit
  exact hsplit.symm

end Places

variable [DecidableEq Addr]

def behind (l : NodeList Addr α) (a : Addr) : List Addr := (l.root.dropWhile (· ≠ a)).tail

def peekNext (l : NodeList Addr α) (a : Addr) : Option (Option Addr) :=
  (l.memory a).map fun _ => (l.behind a).head?

def removeFirst (l : NodeList Addr α) (a : Addr) : Option (NodeList Addr α) :=
  (l.memory a).map fun _ => { l with root := l.behind a }

def free (l : NodeList Addr α) (a : Addr) : Option (NodeList Addr α) :=
  (l.memory a).map fun _ => { l with memory := Function.update l.memory a none }

structure Holds (l : NodeList Addr α) (nodes : List (Addr × α)) : Prop where
  root : l.root = nodes.map Prod.fst
  distinct : (nodes.map Prod.fst).Nodup
  live : ∀ node ∈ nodes, l.memory node.1 = some node.2

variable {l : NodeList Addr α} {pre rest nodes : List (Addr × α)} {node : Addr × α}

theorem Holds.behind_eq (h : l.Holds (pre ++ node :: rest)) : l.behind node.1 = rest.map Prod.fst := by
  have hdistinct := h.distinct
  rw [List.map_append, List.nodup_append] at hdistinct
  have hpre : ∀ a ∈ pre.map Prod.fst, decide (a ≠ node.1) = true := by
    intro a ha
    exact decide_eq_true (hdistinct.2.2 a ha node.1 (by simp))
  rw [behind, h.root, List.map_append, List.dropWhile_append_of_pos hpre, List.map_cons,
    List.dropWhile_cons_of_neg (by simp), List.tail_cons]

theorem Holds.peekNext_eq (h : l.Holds (pre ++ node :: rest)) :
    l.peekNext node.1 = some (rest.head?.map Prod.fst) := by
  rw [peekNext, h.live node (by simp), h.behind_eq, List.head?_map]
  rfl

/-- The first node leaves the list and the memory. -/
theorem Holds.pop (h : l.Holds (node :: rest)) :
    ∃ l', (l.removeFirst node.1).bind (·.free node.1) = some l' ∧ l'.Holds rest ∧
      l'.memory = Function.update l.memory node.1 none := by
  have hlive := h.live node (List.mem_cons_self ..)
  have hbehind : l.behind node.1 = rest.map Prod.fst := @Holds.behind_eq _ _ _ l [] rest node h
  have hdistinct := h.distinct
  rw [List.map_cons, List.nodup_cons] at hdistinct
  refine ⟨⟨rest.map Prod.fst, Function.update l.memory node.1 none⟩, ?_, ⟨rfl, hdistinct.2, ?_⟩, rfl⟩
  · rw [removeFirst, hlive, Option.map_some, Option.bind_some, free, hlive, hbehind]
    rfl
  · intro other hother
    have hne : other.1 ≠ node.1 := fun heq => hdistinct.1 (heq ▸ List.mem_map_of_mem hother)
    simp only [Function.update_of_ne hne]
    exact h.live other (List.mem_cons_of_mem _ hother)

/-- The accesses to a node behind the first `p`. -/
theorem Holds.at_place {p i : Nat} (h : l.Holds (nodes.drop p)) (hp : p ≤ i) (hi : i < nodes.length) :
    l.memory nodes[i].1 = some nodes[i].2 ∧ l.peekNext nodes[i].1 = some (addrAt nodes (i + 1)) := by
  rw [drop_eq hp hi] at h
  refine ⟨h.live _ (List.mem_append_right _ (List.mem_cons_self ..)), ?_⟩
  rw [h.peekNext_eq, List.head?_drop]
  rfl

end NodeList

end SdkNrf
