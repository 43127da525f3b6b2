import Mathlib

/-!
# Accesses to buffers

What a function reads from its input and writes to its output, as ranges of indices.
-/

namespace SdkNrf

inductive Access
  | read (pos len : Nat)
  | write (pos len : Nat)
  deriving DecidableEq, Repr

namespace Access

/-- The bytes read lie below `input`, the bytes written below `output`. -/
def Inside (input output : Nat) : Access → Prop
  | read pos len => len = 0 ∨ pos + len ≤ input
  | write pos len => len = 0 ∨ pos + len ≤ output

instance (input output : Nat) (a : Access) : Decidable (a.Inside input output) := by
  cases a <;> exact inferInstanceAs (Decidable (_ ∨ _))

@[simp] theorem read_inside {input output pos len : Nat} :
    (read pos len).Inside input output ↔ len = 0 ∨ pos + len ≤ input := Iff.rfl

@[simp] theorem write_inside {input output pos len : Nat} :
    (write pos len).Inside input output ↔ len = 0 ∨ pos + len ≤ output := Iff.rfl

end Access

def AllInside (input output : Nat) (as : List Access) : Prop := ∀ a ∈ as, a.Inside input output

instance (input output : Nat) (as : List Access) : Decidable (AllInside input output as) :=
  inferInstanceAs (Decidable (∀ a ∈ as, a.Inside input output))

namespace AllInside

variable {input output : Nat} {a : Access} {as bs : List Access}

@[simp] theorem nil : AllInside input output [] := fun _ h => absurd h List.not_mem_nil

@[simp] theorem cons : AllInside input output (a :: as) ↔
    a.Inside input output ∧ AllInside input output as := List.forall_mem_cons

@[simp] theorem append : AllInside input output (as ++ bs) ↔
    AllInside input output as ∧ AllInside input output bs := List.forall_mem_append

end AllInside

end SdkNrf
