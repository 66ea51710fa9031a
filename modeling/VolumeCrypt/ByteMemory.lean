import VolumeCrypt.ByteString

/-!
# Byte memories

A memory is a total function from addresses to bytes. Loads return a list,
saves replace a range, and a load sees exactly the saves that meet its range.
-/
namespace ByteMemory

open ByteString

abbrev Memory := Nat → UInt8

/-- The `n` bytes from address `a` on. -/
def load (m : Memory) (a n : Nat) : Bytes := (List.range n).map fun i => m (a + i)

/-- Replace the bytes from address `a` on by `b`. -/
def save (m : Memory) (a : Nat) (b : Bytes) : Memory :=
  fun i => if a ≤ i ∧ i < a + b.length then b.getD (i - a) 0 else m i

@[simp] theorem length_load (m : Memory) (a n : Nat) : (load m a n).length = n := by
  simp [load]

theorem getElem?_load (m : Memory) (a n i : Nat) :
    (load m a n)[i]? = if i < n then some (m (a + i)) else none := by
  by_cases h : i < n
  · simp [load, h]
  · simp [load, h]

/-- Loads agree when the memories agree on the range. -/
theorem load_congr {m m' : Memory} {a n : Nat} (h : ∀ i, i < n → m (a + i) = m' (a + i)) :
    load m a n = load m' a n := by
  apply List.map_congr_left
  intro i hi
  exact h i (List.mem_range.mp hi)

theorem load_zero (a n : Nat) : load (fun _ => 0) a n = List.replicate n 0 := by
  apply List.ext_getElem <;> simp [load]

theorem load_add (m : Memory) (a n k : Nat) : load m a (n + k) = load m a n ++ load m (a + n) k := by
  simp [load, List.range_add, Nat.add_assoc]

theorem slice_load (m : Memory) {a n off k : Nat} (h : off + k ≤ n) :
    slice (load m a n) off k = load m (a + off) k := by
  apply List.ext_getElem?
  intro i
  rw [getElem?_slice, getElem?_load, getElem?_load]
  by_cases hi : i < k
  · rw [if_pos hi, if_pos hi, if_pos (by omega), Nat.add_assoc]
  · rw [if_neg hi, if_neg hi]

theorem save_apply_of_mem {m : Memory} {a i : Nat} {b : Bytes} (hi : i < b.length) :
    save m a b (a + i) = b.getD i 0 := by
  rw [save, if_pos (by omega), Nat.add_sub_cancel_left]

theorem save_apply_of_not_mem {m : Memory} {a i : Nat} {b : Bytes} (h : i < a ∨ a + b.length ≤ i) :
    save m a b i = m i := by
  rw [save, if_neg (by omega)]

/-- A load of exactly the saved range returns the saved bytes. -/
theorem load_save_same (m : Memory) {a n : Nat} {b : Bytes} (hn : b.length = n) :
    load (save m a b) a n = b := by
  apply List.ext_getElem?
  intro i
  rw [getElem?_load]
  by_cases hi : i < n
  · rw [if_pos hi, save_apply_of_mem (by omega), List.getElem?_eq_getElem (by omega)]
    simp [List.getD, List.getElem?_eq_getElem (by omega : i < b.length)]
  · rw [if_neg hi, List.getElem?_eq_none (by omega)]

/-- A load inside the saved range returns the matching slice. -/
theorem load_save_inside (m : Memory) {a off n : Nat} {b : Bytes} (h : off + n ≤ b.length) :
    load (save m a b) (a + off) n = slice b off n := by
  rw [← slice_load (save m a b) h, load_save_same m rfl]

end ByteMemory
