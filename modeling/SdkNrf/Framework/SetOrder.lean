import Mathlib

/-!
# Iteration order of hash sets

`list(set(xs))` drops duplicates and returns the members in an order that the language leaves open: it depends
on the hash seed and on the insertion history.
-/

namespace SdkNrf

structure SetOrder (α : Type*) where
  toList : List α → List α
  nodup : ∀ xs, (toList xs).Nodup
  mem : ∀ xs x, x ∈ toList xs ↔ x ∈ xs

def SetOrder.dedup (α : Type*) [DecidableEq α] : SetOrder α where
  toList := List.dedup
  nodup := List.nodup_dedup
  mem := fun _ _ => List.mem_dedup

end SdkNrf
