import SdkNrf.Framework.Arena

/-!
# Erased bytes

Erased flash reads as `0xFF`, and programming clears bits. Over erased bytes, programming is a
write.
-/

namespace SdkNrf

/-- All bytes are `0xFF`. -/
def Erased (bytes : List UInt8) : Prop := ∀ b ∈ bytes, b = 0xFF

instance (bytes : List UInt8) : Decidable (Erased bytes) :=
  inferInstanceAs (Decidable (∀ b ∈ bytes, b = 0xFF))

namespace Erased

variable {l₁ l₂ bytes : List UInt8}

@[simp] theorem nil : Erased [] := by simp [Erased]

@[simp] theorem replicate (n : Nat) : Erased (List.replicate n 0xFF) := by
  intro b hb
  exact List.eq_of_mem_replicate hb

@[simp] theorem append_iff : Erased (l₁ ++ l₂) ↔ Erased l₁ ∧ Erased l₂ := by
  simp only [Erased, List.mem_append]
  constructor
  · intro h
    exact ⟨fun b hb => h b (Or.inl hb), fun b hb => h b (Or.inr hb)⟩
  · rintro ⟨h1, h2⟩ b (hb | hb)
    · exact h1 b hb
    · exact h2 b hb

theorem eq_replicate (h : Erased bytes) : bytes = List.replicate bytes.length 0xFF :=
  List.eq_replicate_iff.mpr ⟨rfl, h⟩

theorem eq_of_length (h1 : Erased l₁) (h2 : Erased l₂) (hlen : l₁.length = l₂.length) : l₁ = l₂ := by
  rw [h1.eq_replicate, h2.eq_replicate, hlen]

theorem take (h : Erased bytes) (n : Nat) : Erased (bytes.take n) :=
  fun b hb => h b (List.mem_of_mem_take hb)

theorem drop (h : Erased bytes) (n : Nat) : Erased (bytes.drop n) :=
  fun b hb => h b (List.mem_of_mem_drop hb)

theorem drop_le {m n : Nat} (h : Erased (bytes.drop m)) (hmn : m ≤ n) : Erased (bytes.drop n) := by
  rw [show n = m + (n - m) by omega, ← List.drop_drop]
  exact h.drop _

end Erased

theorem allOnes_and (b : UInt8) : 0xFF &&& b = b := by
  apply UInt8.toBitVec_inj.mp
  exact BitVec.allOnes_and

/-- Programming erased bytes leaves the data there. -/
theorem zipWith_and_erased {old data : List UInt8} (h : Erased old)
    (hlen : old.length = data.length) : List.zipWith (· &&& ·) old data = data := by
  induction data generalizing old with
  | nil => simp
  | cons b bs ih =>
    obtain ⟨o, os, rfl⟩ := List.exists_cons_of_length_eq_add_one hlen
    have ho : o = 0xFF := h o (by simp)
    have hos : Erased os := fun x hx => h x (List.mem_cons_of_mem _ hx)
    rw [List.zipWith_cons_cons, ih hos (by simpa using hlen), ho, allOnes_and]

namespace Memory

variable {mem : Memory} {bytes : List UInt8} {off : Nat}

theorem take_write_front (h : off ≤ mem.length) : (mem.write off bytes).take off = mem.take off := by
  rw [write, List.append_assoc, List.take_append_of_le_length (by simp [h]), List.take_take,
    min_self]

theorem take_write_end (h : off ≤ mem.length) :
    (mem.write off bytes).take (off + bytes.length) = mem.take off ++ bytes := by
  have hlen : (mem.take off ++ bytes).length = off + bytes.length := by simp [h]
  rw [write, ← hlen, List.take_left]

theorem drop_write_end (h : off ≤ mem.length) :
    (mem.write off bytes).drop (off + bytes.length) = mem.drop (off + bytes.length) := by
  have hlen : (mem.take off ++ bytes).length = off + bytes.length := by simp [h]
  rw [write]
  nth_rewrite 1 [← hlen]
  rw [List.drop_left]

theorem take_add_slice (mem : Memory) (off len : Nat) :
    mem.take (off + len) = mem.take off ++ mem.slice off len := by
  rw [slice, List.take_add]

theorem length_slice {len : Nat} (h : off + len ≤ mem.length) : (mem.slice off len).length = len := by
  simp only [slice, List.length_take, List.length_drop]
  omega

theorem write_slice {len : Nat} (h : off + len ≤ mem.length) :
    mem.write off (mem.slice off len) = mem := by
  rw [write, length_slice h, ← take_add_slice, List.take_append_drop]

end Memory

end SdkNrf
