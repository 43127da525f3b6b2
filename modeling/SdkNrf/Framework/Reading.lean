import SdkNrf.Framework.Bytes
import SdkNrf.Framework.ExceptRun

/-!
# Fallible computations that read a buffer

What a parser returns, with the indices of the bytes that it reads on the way.
-/

namespace SdkNrf

structure Reading (ε α : Type) where
  result : Except ε α
  reads : List Nat

namespace Reading

variable {ε α β : Type}

def fail (e : ε) : Reading ε α := ⟨.error e, []⟩

instance : Monad (Reading ε) where
  pure a := ⟨.ok a, []⟩
  bind x f :=
    match x.result with
    | .error e => ⟨.error e, x.reads⟩
    | .ok a => ⟨(f a).result, x.reads ++ (f a).reads⟩

/-- The byte at `i`. -/
def byteAt (raw : Memory) (i : Nat) : Reading ε UInt8 := ⟨.ok (raw.getD i 0), [i]⟩

/-- `sys_get_be16` at `i`. -/
def be16At (raw : Memory) (i : Nat) : Reading ε Nat :=
  ⟨.ok (be16Value (raw.getD i 0) (raw.getD (i + 1) 0)), [i, i + 1]⟩

/-- `sys_get_be32` at `i`. -/
def be32At (raw : Memory) (i : Nat) : Reading ε Nat :=
  ⟨.ok (be32Value (raw.getD i 0) (raw.getD (i + 1) 0) (raw.getD (i + 2) 0) (raw.getD (i + 3) 0)),
    [i, i + 1, i + 2, i + 3]⟩

section Result

variable {e : ε} {a : α} {raw : Memory} {i : Nat}

@[simp] theorem result_fail : (fail e : Reading ε α).result = .error e := rfl

@[simp] theorem result_pure : (pure a : Reading ε α).result = .ok a := rfl

@[simp] theorem result_bind {x : Reading ε α} {f : α → Reading ε β} :
    (x >>= f).result = x.result >>= fun a => (f a).result := by
  cases x with
  | mk result reads => cases result <;> rfl

@[simp] theorem result_byteAt : (byteAt raw i : Reading ε UInt8).result = .ok (raw.getD i 0) := rfl

@[simp] theorem result_be16At : (be16At raw i : Reading ε Nat).result =
    .ok (be16Value (raw.getD i 0) (raw.getD (i + 1) 0)) := rfl

@[simp] theorem result_be32At : (be32At raw i : Reading ε Nat).result =
    .ok (be32Value (raw.getD i 0) (raw.getD (i + 1) 0) (raw.getD (i + 2) 0)
      (raw.getD (i + 3) 0)) := rfl

end Result

/-- The `n` bytes from `i` on, zero behind the end of the buffer. -/
def bytesAt (raw : Memory) (i n : Nat) : List UInt8 := (List.range n).map fun j => raw.getD (i + j) 0

section Bytes

variable {raw : Memory} {i v : Nat}

@[simp] theorem length_bytesAt (raw : Memory) (i n : Nat) : (bytesAt raw i n).length = n := by
  simp [bytesAt]

theorem bytesAt_one (raw : Memory) (i : Nat) : bytesAt raw i 1 = [raw.getD i 0] := rfl

theorem bytesAt_add (raw : Memory) (i m n : Nat) :
    bytesAt raw i (m + n) = bytesAt raw i m ++ bytesAt raw (i + m) n := by
  simp [bytesAt, List.range_add, Function.comp_def, Nat.add_assoc]

theorem bytesAt_eq_append_iff {m n : Nat} {l l' : List UInt8} (h : l.length = m) :
    bytesAt raw i (m + n) = l ++ l' ↔ bytesAt raw i m = l ∧ bytesAt raw (i + m) n = l' := by
  rw [bytesAt_add]
  constructor
  · intro heq
    apply List.append_inj heq
    rw [length_bytesAt, h]
  · rintro ⟨rfl, rfl⟩
    rfl

theorem bytesAt_eq_slice {n : Nat} (h : i + n ≤ raw.length) : bytesAt raw i n = raw.slice i n := by
  apply List.ext_getElem
  · simp [Memory.slice]
    omega
  · intro j hj _
    rw [length_bytesAt] at hj
    simp [bytesAt, Memory.slice, List.getElem?_eq_getElem (show i + j < raw.length by omega)]

theorem be32_be32Value (b3 b2 b1 b0 : UInt8) : be32 (be32Value b3 b2 b1 b0) = [b3, b2, b1, b0] := by
  have h3 := b3.toNat_lt
  have h2 := b2.toNat_lt
  have h1 := b1.toNat_lt
  have h0 := b0.toNat_lt
  simp only [be32, List.cons.injEq, and_true]
  refine ⟨?_, ?_, ?_, ?_⟩ <;> apply UInt8.toNat.inj <;>
    simp only [be32Value, UInt8.toNat_ofNat'] <;> omega

theorem be32Value_lt (b3 b2 b1 b0 : UInt8) : be32Value b3 b2 b1 b0 < 2 ^ 32 := by
  have h3 := b3.toNat_lt
  have h2 := b2.toNat_lt
  have h1 := b1.toNat_lt
  have h0 := b0.toNat_lt
  unfold be32Value
  omega

theorem be16At_eq_ok_iff :
    (be16At raw i : Reading ε Nat).result = .ok v ↔ v < 2 ^ 16 ∧ bytesAt raw i 2 = be16 v := by
  rw [result_be16At, Except.ok.injEq]
  constructor
  · rintro rfl
    exact ⟨be16Value_lt _ _, (be16_be16Value _ _).symm⟩
  · rintro ⟨hlt, hbytes⟩
    change [raw.getD i 0, raw.getD (i + 1) 0] = be16 v at hbytes
    rw [be16, List.cons.injEq, List.cons.injEq] at hbytes
    rw [hbytes.1, hbytes.2.1, be16Value_be16 hlt]

theorem be32At_eq_ok_iff :
    (be32At raw i : Reading ε Nat).result = .ok v ↔ v < 2 ^ 32 ∧ bytesAt raw i 4 = be32 v := by
  rw [result_be32At, Except.ok.injEq]
  constructor
  · rintro rfl
    exact ⟨be32Value_lt _ _ _ _, (be32_be32Value _ _ _ _).symm⟩
  · rintro ⟨hlt, hbytes⟩
    change [raw.getD i 0, raw.getD (i + 1) 0, raw.getD (i + 2) 0, raw.getD (i + 3) 0] = be32 v
      at hbytes
    rw [be32] at hbytes
    simp only [List.cons.injEq] at hbytes
    rw [hbytes.1, hbytes.2.1, hbytes.2.2.1, hbytes.2.2.2.1, be32Value_be32 hlt]

end Bytes

/-- Every byte that is read lies below `n`. -/
def Within (n : Nat) (x : Reading ε α) : Prop := ∀ i ∈ x.reads, i < n

section Within

variable {n i : Nat} {raw : Memory}

theorem Within.fail {e : ε} : Within n (fail e : Reading ε α) := fun _ h => absurd h List.not_mem_nil

theorem Within.pure {a : α} : Within n (pure a : Reading ε α) := fun _ h => absurd h List.not_mem_nil

/-- A sequence stays below `n` when its first part does and the second one does for every value
that the first returns. -/
theorem Within.bind {x : Reading ε α} {f : α → Reading ε β} (hx : Within n x)
    (hf : ∀ a, x.result = .ok a → Within n (f a)) : Within n (x >>= f) := by
  cases x with
  | mk result reads =>
    cases result with
    | error e => exact hx
    | ok a =>
      intro i hi
      rcases List.mem_append.mp hi with h | h
      · exact hx i h
      · exact hf a rfl i h

theorem Within.byteAt (h : i < n) : Within n (byteAt raw i : Reading ε UInt8) := by
  simpa [Within, Reading.byteAt] using h

theorem Within.be16At (h : i + 1 < n) : Within n (be16At raw i : Reading ε Nat) := by
  simp only [Within, Reading.be16At, List.forall_mem_cons, List.not_mem_nil, false_implies,
    implies_true, and_true]
  omega

theorem Within.be32At (h : i + 3 < n) : Within n (be32At raw i : Reading ε Nat) := by
  simp only [Within, Reading.be32At, List.forall_mem_cons, List.not_mem_nil, false_implies,
    implies_true, and_true]
  omega

end Within

end Reading

end SdkNrf
