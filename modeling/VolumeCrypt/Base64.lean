import VolumeCrypt.Utf8Text

/-!
# Standard base64

Three bytes are four groups of six bits, each written as one letter of a 64-letter
alphabet; a last group of one or two bytes is filled up with zero bits and, in the padded
form, with `=` signs. Regrouping the six-bit values gives the bytes back, whatever bits
have left the accumulator before.
-/
namespace Base64

open ByteString Utf8Text

/-- The letter of a six-bit value. -/
def symbol (n : Nat) : Char :=
  if n < 26 then Char.ofNat (n + 65)
  else if n < 52 then Char.ofNat (n + 71)
  else if n < 62 then Char.ofNat (n - 4)
  else if n = 62 then '+'
  else '/'

/-- The six-bit values of a byte string, most significant bits first. -/
def sextets : Bytes → List Nat
  | [] => []
  | [a] => [a.toNat / 4, a.toNat % 4 * 16]
  | [a, b] => [a.toNat / 4, a.toNat % 4 * 16 + b.toNat / 16, b.toNat % 16 * 4]
  | a :: b :: c :: rest =>
    a.toNat / 4 :: (a.toNat % 4 * 16 + b.toNat / 16) :: (b.toNat % 16 * 4 + c.toNat / 64) :: c.toNat % 64 ::
      sextets rest

def unpadded (b : Bytes) : Text := (sextets b).map symbol

def padding (b : Bytes) : Text := List.replicate ((3 - b.length % 3) % 3) '='

def encode (b : Bytes) : Text := unpadded b ++ padding b

/-- Take in six bits at a time and give out eight as soon as there are as many. The accumulator keeps every bit. -/
def regroup (acc nbits : Nat) : List Nat → Bytes
  | [] => []
  | v :: vs =>
    if nbits + 6 ≥ 8 then
      UInt8.ofNat ((acc * 64 + v) / 2 ^ (nbits + 6 - 8)) :: regroup (acc * 64 + v) (nbits + 6 - 8) vs
    else regroup (acc * 64 + v) (nbits + 6) vs

theorem sextets_lt {b : Bytes} : ∀ v ∈ sextets b, v < 64 := by
  induction b using sextets.induct with
  | case1 => simp [sextets]
  | case2 a =>
    have := a.toNat_lt
    simp only [sextets, List.mem_cons, List.not_mem_nil, or_false, forall_eq_or_imp, forall_eq]
    omega
  | case3 a b =>
    have := a.toNat_lt
    have := b.toNat_lt
    simp only [sextets, List.mem_cons, List.not_mem_nil, or_false, forall_eq_or_imp, forall_eq]
    omega
  | case4 a b c rest ih =>
    have := a.toNat_lt
    have := b.toNat_lt
    have := c.toNat_lt
    simp only [sextets, List.mem_cons, forall_eq_or_imp]
    exact ⟨by omega, by omega, by omega, by omega, ih⟩

/-- A byte is the last eight bits of any accumulator that ends in it. -/
theorem ofNat_eq_of_mod {n : Nat} {x : UInt8} (h : n % 256 = x.toNat) : UInt8.ofNat n = x := by
  apply UInt8.toNat_inj.mp
  rw [UInt8.toNat_ofNat']
  exact h

/-- At a group boundary the bits taken in before no longer matter. -/
theorem regroup_sextets (acc : Nat) (b : Bytes) : regroup acc 0 (sextets b) = b := by
  induction b using sextets.induct generalizing acc with
  | case1 => rfl
  | case2 a =>
    have := a.toNat_lt
    simp only [sextets, regroup, Nat.reduceAdd, ge_iff_le, Nat.reduceLeDiff, if_true, if_false, Nat.reduceSub,
      Nat.reducePow, List.cons.injEq, and_true]
    exact ofNat_eq_of_mod (by omega)
  | case3 a b =>
    have := a.toNat_lt
    have := b.toNat_lt
    simp only [sextets, regroup, Nat.reduceAdd, ge_iff_le, Nat.reduceLeDiff, if_true, if_false, Nat.reduceSub,
      Nat.reducePow, List.cons.injEq, and_true]
    exact ⟨ofNat_eq_of_mod (by omega), ofNat_eq_of_mod (by omega)⟩
  | case4 a b c rest ih =>
    have := a.toNat_lt
    have := b.toNat_lt
    have := c.toNat_lt
    simp only [sextets, regroup, Nat.reduceAdd, ge_iff_le, Nat.reduceLeDiff, if_true, if_false, Nat.reduceSub,
      Nat.reducePow, List.cons.injEq, and_true, ih]
    exact ⟨ofNat_eq_of_mod (by omega), ofNat_eq_of_mod (by omega), ofNat_eq_of_mod (by omega)⟩

end Base64
