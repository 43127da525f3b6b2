import Mathlib

/-!
# Lists that are linked through their nodes

A node carries its own link, so that it can be in one place of one list only.
-/

namespace SdkNrf

structure LinkedChain (σ : Type) where
  head : Option σ
  tail : Option σ
  next : σ → Option σ

namespace LinkedChain

variable {σ : Type}

def empty : LinkedChain σ := ⟨none, none, fun _ => none⟩

def append [DecidableEq σ] (l : LinkedChain σ) (node : σ) : LinkedChain σ :=
  let next := Function.update l.next node none
  match l.head, l.tail with
  | some head, some tail => ⟨some head, some node, Function.update next tail (some node)⟩
  | _, _ => ⟨some node, some node, next⟩

def Path (next : σ → Option σ) : List σ → Option σ → Prop
  | [], first => first = none
  | node :: rest, first => first = some node ∧ Path next rest (next node)

structure Holds (l : LinkedChain σ) (nodes : List σ) : Prop where
  path : Path l.next nodes l.head
  tail : l.tail = nodes.getLast?

structure Loops (l : LinkedChain σ) (node : σ) : Prop where
  head : l.head = some node
  tail : l.tail = some node
  next : l.next node = some node

variable {next next' : σ → Option σ} {first : Option σ} {nodes nodes' : List σ} {l : LinkedChain σ}
  {node last : σ}

theorem Path.unique (h : Path next nodes first) (h' : Path next nodes' first) : nodes = nodes' := by
  induction nodes generalizing nodes' first with
  | nil =>
    cases nodes' with
    | nil => rfl
    | cons node nodes' => exact absurd (h.symm.trans h'.1) (by simp)
  | cons node nodes ih =>
    cases nodes' with
    | nil => exact absurd (h.1.symm.trans h') (by simp)
    | cons node' nodes' =>
      obtain rfl : node = node' := Option.some.inj (h.1.symm.trans h'.1)
      rw [ih h.2 h'.2]

theorem Path.snoc (h : Path next (nodes ++ [last]) first)
    (hnext : ∀ node ∈ nodes, next' node = next node) (hlast : next' last = some node)
    (hnode : next' node = none) : Path next' (nodes ++ [last] ++ [node]) first := by
  induction nodes generalizing first with
  | nil => exact ⟨h.1, hlast, hnode⟩
  | cons other nodes ih =>
    obtain ⟨hother, hrest⟩ := List.forall_mem_cons.mp hnext
    exact ⟨h.1, hother ▸ ih h.2 hrest⟩

theorem Holds.nil : (empty : LinkedChain σ).Holds [] := ⟨rfl, rfl⟩

theorem Loops.not_path (h : l.Loops node) : ¬ Path l.next nodes l.head := by
  have hloop : ¬ Path l.next nodes (some node) := by
    induction nodes with
    | nil =>
      intro hpath
      cases hpath
    | cons other nodes ih =>
      rintro ⟨hother, hrest⟩
      obtain rfl := Option.some.inj hother
      exact ih (h.next ▸ hrest)
  rwa [h.head]

section Append

variable [DecidableEq σ]

theorem append_eq (hhead : l.head = some node) (htail : l.tail = some last) (added : σ) :
    l.append added = ⟨some node, some added,
      Function.update (Function.update l.next added none) last (some added)⟩ := by
  rw [append, hhead, htail]

theorem Holds.append (h : l.Holds nodes) (hdistinct : nodes.Nodup) (hnew : node ∉ nodes) :
    (l.append node).Holds (nodes ++ [node]) := by
  rcases List.eq_nil_or_concat nodes with rfl | ⟨rest, last, rfl⟩
  · have hhead : l.head = none := h.path
    rw [LinkedChain.append, hhead]
    exact ⟨⟨rfl, Function.update_self ..⟩, rfl⟩
  rw [List.concat_eq_append] at *
  have htail : l.tail = some last := by rw [h.tail, List.getLast?_concat]
  have hne : ∀ other ∈ rest ++ [last], other ≠ node := fun other hother heq => hnew (heq ▸ hother)
  have hlast : ∀ other ∈ rest, other ≠ last := by
    intro other hother heq
    exact (List.nodup_append.mp hdistinct).2.2 other hother last (by simp) heq
  obtain ⟨first, hhead⟩ : ∃ first, l.head = some first := by
    have hpath := h.path
    cases rest with
    | nil => exact ⟨last, hpath.1⟩
    | cons other rest => exact ⟨other, hpath.1⟩
  rw [append_eq hhead htail]
  refine ⟨?_, by rw [List.getLast?_concat]⟩
  rw [← hhead]
  apply h.path.snoc
  · intro other hother
    dsimp only
    rw [Function.update_of_ne (hlast other hother),
      Function.update_of_ne (hne other (List.mem_append_left _ hother))]
  · exact Function.update_self ..
  · dsimp only
    rw [Function.update_of_ne (hne last (by simp)).symm, Function.update_self]

/-- The first of several nodes loses its link to the second one. -/
theorem Holds.append_first (h : l.Holds (node :: nodes)) (htail : (node :: nodes).getLast? = some last)
    (hne : last ≠ node) : (l.append node).Holds [node] := by
  rw [append_eq h.path.1 (h.tail.trans htail)]
  refine ⟨⟨rfl, ?_⟩, rfl⟩
  change Function.update (Function.update l.next node none) last (some node) node = none
  rw [Function.update_of_ne hne.symm, Function.update_self]

theorem Holds.append_single (h : l.Holds [node]) : (l.append node).Loops node := by
  rw [append_eq h.path.1 h.tail]
  exact ⟨rfl, rfl, Function.update_self ..⟩

theorem Loops.append (h : l.Loops node) : (l.append node).Loops node := by
  rw [append_eq h.head h.tail]
  exact ⟨rfl, rfl, Function.update_self ..⟩

end Append

end LinkedChain

end SdkNrf
