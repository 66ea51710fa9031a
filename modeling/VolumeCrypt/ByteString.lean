import Mathlib.Data.Vector.Basic

/-!
# Byte strings

Little-endian integers, slices, in-place copies and chunk loops over byte
lists. A fixed-size array is a list with its length as a field; a growing or
borrowed buffer is a plain list. Nothing here depends on a particular format.
-/
namespace ByteString

abbrev Bytes := List UInt8

/-- A byte array of fixed size, `[u8; n]`. -/
abbrev Fixed (n : Nat) := List.Vector UInt8 n

/-- The natural number with the given little-endian bytes. -/
def leNat : Bytes → Nat
  | [] => 0
  | b :: bs => b.toNat + 256 * leNat bs

/-- The `w` low bytes of a natural number, least significant first. -/
def leBytes : Nat → Nat → Bytes
  | 0, _ => []
  | w + 1, n => UInt8.ofNat n :: leBytes w (n / 256)

@[simp] theorem length_leBytes (w n : Nat) : (leBytes w n).length = w := by
  induction w generalizing n with
  | zero => rfl
  | succ w ih => simp [leBytes, ih]

theorem leNat_leBytes (w n : Nat) : leNat (leBytes w n) = n % 256 ^ w := by
  induction w generalizing n with
  | zero => simp [leBytes, leNat, Nat.mod_one]
  | succ w ih =>
    have hp : 256 ^ (w + 1) = 256 * 256 ^ w := Nat.pow_succ'
    rw [leBytes, leNat, ih, UInt8.toNat_ofNat', hp]
    exact Nat.mod_mul.symm

theorem leNat_leBytes_of_lt {w n : Nat} (h : n < 256 ^ w) : leNat (leBytes w n) = n := by
  rw [leNat_leBytes, Nat.mod_eq_of_lt h]

theorem leNat_lt (b : Bytes) : leNat b < 256 ^ b.length := by
  induction b with
  | nil => simp [leNat]
  | cons x xs ih =>
    have hx : x.toNat < 256 := x.toNat_lt
    rw [leNat, List.length_cons, Nat.pow_succ]
    omega

theorem leBytes_leNat (b : Bytes) : leBytes b.length (leNat b) = b := by
  induction b with
  | nil => rfl
  | cons x xs ih =>
    have hx : x.toNat < 256 := x.toNat_lt
    have hd : (x.toNat + 256 * leNat xs) / 256 = leNat xs := by omega
    have hm : UInt8.ofNat (x.toNat + 256 * leNat xs) = x := by
      apply UInt8.toNat_inj.mp
      rw [UInt8.toNat_ofNat']
      omega
    rw [List.length_cons, leNat, leBytes, hd, hm, ih]

theorem leNat_injective {a b : Bytes} (hl : a.length = b.length) (h : leNat a = leNat b) :
    a = b := by
  rw [← leBytes_leNat a, ← leBytes_leNat b, hl, h]

theorem leNat_append (a b : Bytes) : leNat (a ++ b) = leNat a + 256 ^ a.length * leNat b := by
  induction a with
  | nil => simp [leNat]
  | cons x xs ih =>
    rw [List.cons_append, leNat, leNat, ih, List.length_cons, Nat.pow_succ']
    rw [Nat.mul_add, Nat.add_assoc, Nat.mul_assoc]

/-- The bytes `b[off..off + n]`. -/
def slice (b : Bytes) (off n : Nat) : Bytes := (b.drop off).take n

/-- `b[off..off + src.len()].copy_from_slice(src)`. -/
def copyAt (b : Bytes) (off : Nat) (src : Bytes) : Bytes :=
  b.take off ++ src ++ b.drop (off + src.length)

theorem length_slice (b : Bytes) (off n : Nat) : (slice b off n).length = min n (b.length - off) := by
  simp [slice]

theorem length_slice_of_le {b : Bytes} {off n : Nat} (h : off + n ≤ b.length) :
    (slice b off n).length = n := by
  rw [length_slice]
  omega

theorem slice_zero (b : Bytes) (n : Nat) : slice b 0 n = b.take n := rfl

theorem slice_all (b : Bytes) : slice b 0 b.length = b := by
  simp [slice]

theorem getElem?_slice (b : Bytes) (off n i : Nat) :
    (slice b off n)[i]? = if i < n then b[off + i]? else none := by
  simp only [slice, List.getElem?_take, List.getElem?_drop]

theorem slice_append_left {a : Bytes} (b : Bytes) {off n : Nat} (h : off + n ≤ a.length) :
    slice (a ++ b) off n = slice a off n := by
  apply List.ext_getElem?
  intro i
  simp only [getElem?_slice]
  split
  · rw [List.getElem?_append_left (by omega)]
  · rfl

theorem slice_append_right (a b : Bytes) (off n : Nat) :
    slice (a ++ b) (a.length + off) n = slice b off n := by
  rw [slice, List.drop_append, List.drop_of_length_le (Nat.le_add_right _ _), List.nil_append,
    Nat.add_sub_cancel_left]
  rfl

theorem slice_append_slice (b : Bytes) (off m n : Nat) :
    slice b off m ++ slice b (off + m) n = slice b off (m + n) := by
  simp [slice, ← List.drop_drop, List.take_add]

theorem slice_slice (b : Bytes) {off n i m : Nat} (h : i + m ≤ n) :
    slice (slice b off n) i m = slice b (off + i) m := by
  apply List.ext_getElem?
  intro j
  simp only [getElem?_slice, Nat.add_assoc]
  split
  · rw [if_pos (by omega)]
  · rfl

/-- Two buffers of `n` pieces of `ss` bytes agree when each piece does. -/
theorem eq_of_sectors {ss n : Nat} (hs : 0 < ss) {a b : Bytes} (ha : a.length = n * ss) (hb : b.length = n * ss)
    (h : ∀ k, k < n → slice a (k * ss) ss = slice b (k * ss) ss) : a = b := by
  apply List.ext_getElem?
  intro i
  by_cases hi : i < n * ss
  · have hmod : i % ss < ss := Nat.mod_lt _ hs
    have hk := congrArg (fun l => l[i % ss]?) (h (i / ss) (Nat.div_lt_of_lt_mul (by rwa [Nat.mul_comm])))
    simp only [getElem?_slice, hmod, if_true] at hk
    rw [Nat.mul_comm, Nat.div_add_mod] at hk
    exact hk
  · rw [List.getElem?_eq_none (by omega), List.getElem?_eq_none (by omega)]

theorem length_copyAt {b : Bytes} {off : Nat} {src : Bytes} (h : off + src.length ≤ b.length) :
    (copyAt b off src).length = b.length := by
  simp only [copyAt, List.length_append, List.length_take, List.length_drop]
  omega

theorem copyAt_zero_of_length_le {b src : Bytes} (h : b.length ≤ src.length) : copyAt b 0 src = src := by
  rw [copyAt, Nat.zero_add, List.drop_eq_nil_of_le h, List.take_zero, List.nil_append, List.append_nil]

theorem getElem?_copyAt {b : Bytes} {off : Nat} {src : Bytes} (h : off ≤ b.length) (i : Nat) :
    (copyAt b off src)[i]? =
      if off ≤ i ∧ i < off + src.length then src[i - off]? else b[i]? := by
  have ht : (b.take off).length = off := by rw [List.length_take]; omega
  by_cases h₁ : i < off
  · rw [if_neg (by omega), copyAt, List.append_assoc, List.getElem?_append_left (by omega)]
    rw [List.getElem?_take_of_lt h₁]
  · by_cases h₂ : i < off + src.length
    · rw [if_pos ⟨by omega, h₂⟩, copyAt, List.append_assoc, List.getElem?_append_right (by omega)]
      rw [ht, List.getElem?_append_left (by omega)]
    · rw [if_neg (by omega), copyAt, List.append_assoc, List.getElem?_append_right (by omega), ht]
      rw [List.getElem?_append_right (by omega), List.getElem?_drop]
      congr 1
      omega

/-- Reading back exactly the range that was written. -/
theorem slice_copyAt_same {b : Bytes} {off n : Nat} {src : Bytes} (h : off ≤ b.length)
    (hn : src.length = n) : slice (copyAt b off src) off n = src := by
  apply List.ext_getElem?
  intro i
  rw [getElem?_slice]
  split
  · rw [getElem?_copyAt h, if_pos (by omega)]
    congr 1
    omega
  · rw [List.getElem?_eq_none (by omega)]

/-- A copy leaves every disjoint range alone. -/
theorem slice_copyAt_of_disjoint {b : Bytes} {off o n : Nat} {src : Bytes} (h : off ≤ b.length)
    (hd : o + n ≤ off ∨ off + src.length ≤ o) : slice (copyAt b off src) o n = slice b o n := by
  apply List.ext_getElem?
  intro i
  simp only [getElem?_slice]
  split
  · rw [getElem?_copyAt h, if_neg (by omega)]
  · rfl

/-- Copying what is already there changes nothing. -/
theorem copyAt_eq_self {b : Bytes} {off : Nat} {src : Bytes} (h : off ≤ b.length)
    (hs : slice b off src.length = src) : copyAt b off src = b := by
  apply List.ext_getElem?
  intro i
  rw [getElem?_copyAt h]
  split
  · rename_i hi
    have hg := getElem?_slice b off src.length (i - off)
    rw [hs, if_pos (by omega), Nat.add_sub_of_le hi.1] at hg
    exact hg
  · rfl

/-- The second of two copies to one range wins. -/
theorem copyAt_copyAt {b : Bytes} {off : Nat} {x y : Bytes} (h : off ≤ b.length) (hl : x.length = y.length) :
    copyAt (copyAt b off x) off y = copyAt b off y := by
  have hle : off ≤ (copyAt b off x).length := by
    simp only [copyAt, List.length_append, List.length_take]
    omega
  apply List.ext_getElem?
  intro i
  rw [getElem?_copyAt hle, getElem?_copyAt h, getElem?_copyAt h, hl]
  split <;> rfl

/-- A sequence of `copy_from_slice` calls at fixed offsets. -/
def writeFields (b : Bytes) (fields : List (Nat × Bytes)) : Bytes :=
  fields.foldl (fun b f => copyAt b f.1 f.2) b

/-- The range of a field and the range `[o, o + n)` do not meet. -/
def Apart (f : Nat × Bytes) (o n : Nat) : Prop := o + n ≤ f.1 ∨ f.1 + f.2.length ≤ o

instance (f : Nat × Bytes) (o n : Nat) : Decidable (Apart f o n) :=
  inferInstanceAs (Decidable (_ ∨ _))

/-- Fields that fit into `size` bytes and do not overlap. -/
structure FieldTable (size : Nat) (fields : List (Nat × Bytes)) : Prop where
  fits : ∀ f ∈ fields, f.1 + f.2.length ≤ size
  apart : fields.Pairwise fun f g => Apart g f.1 f.2.length

/-- Offsets and widths that fit into `size` bytes and do not overlap. -/
def Placed (size : Nat) (shape : List (Nat × Nat)) : Prop :=
  (∀ s ∈ shape, s.1 + s.2 ≤ size) ∧ shape.Pairwise fun s t => s.1 + s.2 ≤ t.1 ∨ t.1 + t.2 ≤ s.1

instance (size : Nat) (shape : List (Nat × Nat)) : Decidable (Placed size shape) :=
  inferInstanceAs (Decidable (_ ∧ _))

/-- Whether fields form a table is decided by their offsets and widths. -/
theorem FieldTable.of_placed {size : Nat} {fields : List (Nat × Bytes)} (shape : List (Nat × Nat))
    (hs : fields.map (fun f => (f.1, f.2.length)) = shape) (h : Placed size shape) :
    FieldTable size fields := by
  obtain ⟨hfits, hpair⟩ := h
  subst hs
  constructor
  · intro f hf
    exact hfits _ (List.mem_map_of_mem hf)
  · exact List.pairwise_map.mp hpair

theorem length_writeFields {b : Bytes} {fields : List (Nat × Bytes)}
    (h : ∀ f ∈ fields, f.1 + f.2.length ≤ b.length) : (writeFields b fields).length = b.length := by
  induction fields generalizing b with
  | nil => rfl
  | cons f fs ih =>
    have hf := length_copyAt (h f (by simp))
    rw [writeFields, List.foldl_cons]
    change (writeFields (copyAt b f.1 f.2) fs).length = b.length
    rw [ih (by intro g hg; rw [hf]; exact h g (by simp [hg])), hf]

theorem slice_writeFields_of_apart {b : Bytes} {fields : List (Nat × Bytes)} {o n : Nat}
    (h : ∀ f ∈ fields, f.1 + f.2.length ≤ b.length) (ha : ∀ f ∈ fields, Apart f o n) :
    slice (writeFields b fields) o n = slice b o n := by
  induction fields generalizing b with
  | nil => rfl
  | cons f fs ih =>
    have hf := h f (by simp)
    change slice (writeFields (copyAt b f.1 f.2) fs) o n = slice b o n
    rw [ih (by intro g hg; rw [length_copyAt hf]; exact h g (by simp [hg]))
      (by intro g hg; exact ha g (by simp [hg]))]
    exact slice_copyAt_of_disjoint (by omega) (ha f (by simp))

theorem FieldTable.length_writeFields {size : Nat} {b : Bytes} {fields : List (Nat × Bytes)}
    (h : FieldTable size fields) (hb : b.length = size) : (writeFields b fields).length = size := by
  subst hb
  exact ByteString.length_writeFields h.fits

/-- Every field of a table reads back as it was written. -/
theorem FieldTable.slice_writeFields {size : Nat} {b : Bytes} {fields : List (Nat × Bytes)}
    (h : FieldTable size fields) (hb : b.length = size) {f : Nat × Bytes} (hf : f ∈ fields) {n : Nat}
    (hn : f.2.length = n) : slice (writeFields b fields) f.1 n = f.2 := by
  obtain ⟨fits, apart⟩ := h
  subst hb
  induction fields generalizing b with
  | nil => cases hf
  | cons g gs ih =>
    have hg := fits g (by simp)
    have hl := length_copyAt hg
    have hrest : ∀ f ∈ gs, f.1 + f.2.length ≤ b.length := fun f hf => fits f (by simp [hf])
    obtain ⟨hapart, hpair⟩ := List.pairwise_cons.mp apart
    rw [← hl] at hrest
    change slice (writeFields (copyAt b g.1 g.2) gs) f.1 n = f.2
    rcases List.mem_cons.mp hf with he | hmem
    · subst he
      rw [slice_writeFields_of_apart hrest (by intro k hk; rw [← hn]; exact hapart k hk)]
      exact slice_copyAt_same (by omega) hn
    · exact ih hmem hpair hrest

/-- Byte-wise exclusive or, as a loop `for j in 0..n { a[j] ^= b[j] }` leaves it. -/
def xorBytes (a b : Bytes) : Bytes := List.zipWith (· ^^^ ·) a b

@[simp] theorem length_xorBytes (a b : Bytes) : (xorBytes a b).length = min a.length b.length := by
  simp [xorBytes]

theorem xorBytes_xorBytes {a t : Bytes} (h : a.length = t.length) :
    xorBytes (xorBytes a t) t = a := by
  induction a generalizing t with
  | nil => simp [xorBytes]
  | cons x xs ih =>
    cases t with
    | nil => simp at h
    | cons y ys =>
      have hc : x ^^^ y ^^^ y = x := by rw [UInt8.xor_assoc, UInt8.xor_self, UInt8.xor_zero]
      have ht := ih (Nat.succ.inj h)
      simp only [xorBytes, List.zipWith_cons_cons, hc] at ht ⊢
      rw [ht]

/-- Exclusive or of two arrays of one size. -/
def Fixed.xor {n : Nat} (a b : Fixed n) : Fixed n :=
  ⟨xorBytes a.toList b.toList, by simp⟩

@[simp] theorem Fixed.toList_xor {n : Nat} (a b : Fixed n) :
    (Fixed.xor a b).toList = xorBytes a.toList b.toList := rfl

theorem Fixed.xor_xor {n : Nat} (a t : Fixed n) : Fixed.xor (Fixed.xor a t) t = a :=
  List.Vector.eq _ _ (xorBytes_xorBytes (by simp))

/-- The array `b.try_into().unwrap()` of a slice of length `n`. A slice of another length
panics in the source; here it is cut or padded with zeros. -/
def Fixed.ofBytes (n : Nat) (b : Bytes) : Fixed n :=
  ⟨(b ++ List.replicate n 0).take n, by simp⟩

theorem Fixed.toList_ofBytes {n : Nat} {b : Bytes} (h : b.length = n) :
    (Fixed.ofBytes n b).toList = b := by
  change (b ++ List.replicate n 0).take n = b
  rw [List.take_append_of_le_length (by omega), List.take_of_length_le (by omega)]

@[simp] theorem Fixed.ofBytes_toList {n : Nat} (a : Fixed n) : Fixed.ofBytes n a.toList = a :=
  List.Vector.eq _ _ (Fixed.toList_ofBytes (by simp))

/-- The loop `for (i, chunk) in b.chunks_mut(n).enumerate() { f(i, chunk) }`, started at
index `i`. The last chunk may be short; a zero chunk size panics and is left alone here. -/
def forChunks (n : Nat) (f : Nat → Bytes → Bytes) (i : Nat) (b : Bytes) : Bytes :=
  if n = 0 ∨ b = [] then b else f i (b.take n) ++ forChunks n f (i + 1) (b.drop n)
termination_by b.length
decreasing_by
  rename_i h
  simp only [not_or] at h
  have := List.length_pos_of_ne_nil h.2
  rw [List.length_drop]
  omega

@[simp] theorem forChunks_nil (n : Nat) (f : Nat → Bytes → Bytes) (i : Nat) :
    forChunks n f i [] = [] := by
  rw [forChunks]
  simp

theorem forChunks_cons {n : Nat} (hn : 0 < n) (f : Nat → Bytes → Bytes) (i : Nat) {b : Bytes}
    (hb : b ≠ []) : forChunks n f i b = f i (b.take n) ++ forChunks n f (i + 1) (b.drop n) := by
  rw [forChunks, if_neg (by simp [hb]; omega)]

theorem length_forChunks {n : Nat} {f : Nat → Bytes → Bytes}
    (hf : ∀ i c, (f i c).length = c.length) (i : Nat) (b : Bytes) :
    (forChunks n f i b).length = b.length := by
  fun_induction forChunks n f i b with
  | case1 i b h => rfl
  | case2 i b h ih =>
    rw [List.length_append, hf, ih, ← List.length_append, List.take_append_drop]

/-- A whole number of chunks splits off the front of a chunk loop. -/
theorem forChunks_append {n : Nat} (hn : 0 < n) (f : Nat → Bytes → Bytes) (i k : Nat) (a b : Bytes)
    (ha : a.length = k * n) :
    forChunks n f i (a ++ b) = forChunks n f i a ++ forChunks n f (i + k) b := by
  induction k generalizing i a with
  | zero =>
    have : a = [] := List.eq_nil_of_length_eq_zero (by omega)
    subst a
    simp
  | succ k ih =>
    have hl : a.length = k * n + n := by rw [ha, Nat.succ_mul]
    have hne : a ≠ [] := by intro h; subst a; simp at hl; omega
    have hd : (a.drop n).length = k * n := by rw [List.length_drop]; omega
    rw [forChunks_cons hn f i (by simp [hne]), forChunks_cons hn f i hne]
    rw [List.take_append_of_le_length (by omega), List.drop_append_of_le_length (by omega)]
    rw [ih (i + 1) (a.drop n) hd, List.append_assoc]
    congr 3
    omega

/-- The chunk loop acts on each whole chunk by itself. -/
theorem slice_forChunks {n : Nat} (hn : 0 < n) {f : Nat → Bytes → Bytes}
    (hf : ∀ i c, (f i c).length = c.length) (i k : Nat) (b : Bytes) (hk : (k + 1) * n ≤ b.length) :
    slice (forChunks n f i b) (k * n) n = f (i + k) (slice b (k * n) n) := by
  induction k generalizing i b with
  | zero =>
    have hb : b ≠ [] := by intro h; subst b; simp at hk; omega
    have ht : (f i (b.take n)).length = n := by rw [hf, List.length_take]; omega
    rw [forChunks_cons hn f i hb, Nat.zero_mul, slice_zero, slice_zero, List.take_append_of_le_length (by omega)]
    rw [List.take_of_length_le (by omega), Nat.add_zero]
  | succ k ih =>
    have hs : (k + 1) * n = n + k * n := by rw [Nat.succ_mul, Nat.add_comm]
    have hs' : (k + 1 + 1) * n = (k + 1) * n + n := Nat.succ_mul _ _
    have hb : b ≠ [] := by intro h; subst b; simp at hk; omega
    have ht : (f i (b.take n)).length = n := by rw [hf, List.length_take]; omega
    have hi := ih (i + 1) (b.drop n) (by rw [List.length_drop]; omega)
    rw [forChunks_cons hn f i hb, hs]
    have hr := slice_append_right (f i (b.take n)) (forChunks n f (i + 1) (b.drop n)) (k * n) n
    rw [ht] at hr
    rw [hr, hi]
    have hd : slice (b.drop n) (k * n) n = slice b (n + k * n) n := by simp [slice]
    rw [hd]
    congr 1
    omega

/-- Starting a chunk loop at a later index renumbers its chunks. -/
theorem forChunks_shift (n : Nat) (f : Nat → Bytes → Bytes) (k i : Nat) (b : Bytes) :
    forChunks n f (k + i) b = forChunks n (fun j c => f (k + j) c) i b := by
  fun_induction forChunks n (fun j c => f (k + j) c) i b with
  | case1 i b h => rw [forChunks, if_pos h]
  | case2 i b h ih => rw [forChunks, if_neg h, Nat.add_assoc, ih]

end ByteString
