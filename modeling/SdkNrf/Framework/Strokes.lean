import Mathlib

/-!
# Keys that are pressed and released in turn

A sequence of key events. The events of one key alternate between two values of whether it is pressed.
-/

namespace SdkNrf

variable {κ : Type*} [DecidableEq κ]

def Alternates : Bool → List Bool → Bool → Prop
  | first, [], last => first = last
  | first, p :: rest, last => p = !first ∧ Alternates p rest last

namespace Alternates

variable {first last mid : Bool} {l l' : List Bool}

theorem append (h : Alternates first l mid) (h' : Alternates mid l' last) :
    Alternates first (l ++ l') last := by
  induction l generalizing first with
  | nil =>
    obtain rfl : first = mid := h
    exact h'
  | cons p rest ih => exact ⟨h.1, ih h.2⟩

theorem snoc (h : Alternates first l mid) : Alternates first (l ++ [!mid]) (!mid) :=
  h.append ⟨rfl, rfl⟩

theorem head {p : Bool} (h : Alternates first (p :: l) last) : first = !p := by
  rw [h.1, Bool.not_not]

end Alternates

def strokes (k : κ) (l : List (κ × Bool)) : List Bool := (l.filter (·.1 = k)).map Prod.snd

@[simp] theorem strokes_nil (k : κ) : strokes k [] = [] := rfl

@[simp] theorem strokes_cons (k : κ) (e : κ × Bool) (l : List (κ × Bool)) :
    strokes k (e :: l) = if e.1 = k then e.2 :: strokes k l else strokes k l := by
  by_cases h : e.1 = k <;> simp [strokes, h]

@[simp] theorem strokes_append (k : κ) (l l' : List (κ × Bool)) :
    strokes k (l ++ l') = strokes k l ++ strokes k l' := by
  simp [strokes]

def pressedBy (l : List (κ × Bool)) : List κ :=
  l.foldl (fun keys e => if e.2 then e.1 :: keys else keys.erase e.1) []

theorem pressedBy_snoc (l : List (κ × Bool)) (e : κ × Bool) :
    pressedBy (l ++ [e]) = if e.2 then e.1 :: pressedBy l else (pressedBy l).erase e.1 := by
  simp [pressedBy]

def InTurn (l : List (κ × Bool)) : Prop :=
  ∀ before e after, l = before ++ e :: after → (e.2 = true ↔ e.1 ∉ pressedBy before)

theorem InTurn.nil : InTurn ([] : List (κ × Bool)) := by
  intro before e after h
  simp at h

theorem InTurn.snoc {l : List (κ × Bool)} (h : InTurn l) {e : κ × Bool}
    (he : e.2 = true ↔ e.1 ∉ pressedBy l) : InTurn (l ++ [e]) := by
  intro before other after heq
  rcases List.eq_nil_or_concat after with rfl | ⟨after, last, rfl⟩
  · obtain ⟨rfl, hlast⟩ := List.append_inj' heq rfl
    obtain rfl := List.singleton_inj.mp hlast
    exact he
  · rw [List.concat_eq_append, ← List.cons_append, ← List.append_assoc] at heq
    exact h before other after (List.append_inj' heq rfl).1

theorem pressedBy_nodup {l : List (κ × Bool)} (h : InTurn l) : (pressedBy l).Nodup := by
  induction l using List.reverseRecOn with
  | nil => exact List.nodup_nil
  | append_singleton l e ih =>
    have hl := ih fun before other after heq => h before other (after ++ [e]) (by simp [heq])
    have he := h l e [] rfl
    rw [pressedBy_snoc]
    split
    next hpress => exact List.nodup_cons.mpr ⟨he.mp hpress, hl⟩
    next => exact hl.erase e.1

theorem mem_pressedBy_snoc {l : List (κ × Bool)} (h : InTurn l) (e : κ × Bool) (k : κ) :
    k ∈ pressedBy (l ++ [e]) ↔ if k = e.1 then e.2 = true else k ∈ pressedBy l := by
  rw [pressedBy_snoc]
  by_cases hk : k = e.1
  · subst hk
    cases hp : e.2 with
    | true => simp
    | false => simp [(pressedBy_nodup h).mem_erase_iff]
  · cases hp : e.2 with
    | true => simp [hk]
    | false => simp [(pressedBy_nodup h).mem_erase_iff, hk]

end SdkNrf
