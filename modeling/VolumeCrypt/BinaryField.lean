import Mathlib.Algebra.CharP.Two
import Mathlib.Algebra.Field.ZMod
import Mathlib.Data.Nat.Bitwise
import Mathlib.Data.ZMod.Basic
import Mathlib.RingTheory.AdjoinRoot

/-!
# Words as residues modulo a binary polynomial

Bit `i` of an `n`-bit word is the coefficient of `x^i`. Shifting a word left by
one and folding the overflowing bit back in through the low part `t` of the
modulus `x^n + t(x)` is multiplication by `x` in the quotient ring, and a word is
determined by its residue. The modulus need not be irreducible.
-/
namespace BinaryField

open Polynomial

/-- The polynomial over the two-element field with the low `n` bits of `x` as coefficients. -/
noncomputable def word (n x : Nat) : (ZMod 2)[X] :=
  ∑ i ∈ Finset.range n, if x.testBit i then X ^ i else 0

theorem coeff_word (n x i : Nat) :
    (word n x).coeff i = if i < n ∧ x.testBit i = true then 1 else 0 := by
  have hterm (j : Nat) : (if x.testBit j then X ^ j else (0 : (ZMod 2)[X])).coeff i =
      if j = i then (if x.testBit j then 1 else 0) else 0 := by
    by_cases hj : j = i
    · subst hj
      cases x.testBit j <;> simp
    · cases x.testBit j <;> simp [hj, coeff_X_pow, Ne.symm hj]
  rw [word, finsetSum_coeff]
  simp only [hterm, Finset.sum_ite_eq', Finset.mem_range]
  by_cases hi : i < n <;> simp [hi]

theorem word_xor (n x y : Nat) : word n (x ^^^ y) = word n x + word n y := by
  ext i
  simp only [coeff_word, coeff_add, Nat.testBit_xor]
  by_cases hi : i < n
  · cases x.testBit i <;> cases y.testBit i <;> simp [hi, CharTwo.add_self_eq_zero]
  · simp [hi]

@[simp] theorem word_zero (n : Nat) : word n 0 = 0 := by
  simp [word]

theorem degree_word_lt (n x : Nat) : (word n x).degree < n := by
  apply (degree_lt_iff_coeff_zero _ _).mpr
  intro i hi
  rw [coeff_word, if_neg (by omega)]

theorem word_injective {n x y : Nat} (hx : x < 2 ^ n) (hy : y < 2 ^ n)
    (h : word n x = word n y) : x = y := by
  have hbit (i : Nat) (hi : i < n) : x.testBit i = y.testBit i := by
    have hc : (word n x).coeff i = (word n y).coeff i := by rw [h]
    rw [coeff_word, coeff_word] at hc
    revert hc
    cases x.testBit i <;> cases y.testBit i <;> simp [hi]
  apply Nat.eq_of_testBit_eq
  intro i
  rcases Nat.lt_or_ge i n with hi | hi
  · exact hbit i hi
  · have hp : 2 ^ n ≤ 2 ^ i := Nat.pow_le_pow_right (by decide) hi
    rw [Nat.testBit_eq_false_of_lt (hx.trans_le hp), Nat.testBit_eq_false_of_lt (hy.trans_le hp)]

/-- Shift an `n`-bit word left by one; a bit shifted out is replaced by `t`. -/
def timesX (n t x : Nat) : Nat :=
  (x <<< 1) % 2 ^ n ^^^ (if x.testBit (n - 1) then t else 0)

/-- Multiplying by `x` shifts every coefficient up; only degree `n` can overflow. -/
theorem X_mul_word {n : Nat} (hn : 0 < n) (x : Nat) :
    X * word n x = word n ((x <<< 1) % 2 ^ n) + if x.testBit (n - 1) then X ^ n else 0 := by
  ext i
  cases i with
  | zero =>
    rw [mul_coeff_zero, coeff_X_zero, zero_mul, coeff_add, coeff_word]
    have hz : ((x <<< 1) % 2 ^ n).testBit 0 = false := by
      rw [Nat.testBit_mod_two_pow, Nat.testBit_shiftLeft]
      simp
    by_cases hb : x.testBit (n - 1) <;> simp [hz, hb, coeff_X_pow, show 0 ≠ n by omega]
  | succ i =>
    rw [coeff_X_mul, coeff_add, coeff_word, coeff_word, Nat.testBit_mod_two_pow, Nat.testBit_shiftLeft]
    by_cases hi : i + 1 = n
    · have hn1 : n - 1 = i := by omega
      have hlt : i < n := by omega
      rw [hn1, ← hi]
      by_cases hb : x.testBit i <;> simp [hb]
    · have hX : (X ^ n : (ZMod 2)[X]).coeff (i + 1) = 0 := by rw [coeff_X_pow, if_neg hi]
      have hzero : (if x.testBit (n - 1) then X ^ n else (0 : (ZMod 2)[X])).coeff (i + 1) = 0 := by
        split
        · exact hX
        · simp
      rw [hzero, add_zero]
      by_cases hlt : i + 1 < n
      · simp [hlt, show i < n by omega]
      · simp [hlt, show ¬ i < n by omega]

section Residue

variable {p : (ZMod 2)[X]} {n t : Nat} (hp : p = X ^ n + word n t)

/-- The residue of a word modulo `p`. -/
noncomputable def value (p : (ZMod 2)[X]) (n x : Nat) : AdjoinRoot p := AdjoinRoot.mk p (word n x)

include hp

theorem modulus_monic : p.Monic := hp ▸ monic_X_pow_add (degree_word_lt n t)

theorem modulus_degree : p.degree = n := by
  have hlt : (word n t).degree < (X ^ n : (ZMod 2)[X]).degree := by
    rw [degree_X_pow]
    exact degree_word_lt n t
  rw [hp, degree_add_eq_left_of_degree_lt hlt, degree_X_pow]

theorem mk_X_pow : AdjoinRoot.mk p (X ^ n) = value p n t := by
  rw [value, AdjoinRoot.mk_eq_mk, CharTwo.sub_eq_add, ← hp]

/-- The shift with fold-back is multiplication by the class of `x`. -/
theorem value_timesX (hn : 0 < n) (x : Nat) :
    value p n (timesX n t x) = value p n x * AdjoinRoot.root p := by
  have hX := congrArg (AdjoinRoot.mk p) (X_mul_word hn x)
  rw [map_mul, map_add, AdjoinRoot.mk_X, mul_comm] at hX
  change value p n x * AdjoinRoot.root p = _ at hX
  rw [hX, value, timesX, word_xor, map_add]
  congr 1
  split
  · exact (mk_X_pow hp).symm
  · simp

/-- An `n`-bit word is determined by its residue. -/
theorem value_injective {x y : Nat} (hx : x < 2 ^ n) (hy : y < 2 ^ n)
    (h : value p n x = value p n y) : x = y := by
  have hm := congrArg (AdjoinRoot.modByMonicHom (modulus_monic hp)) h
  simp only [value, AdjoinRoot.modByMonicHom_mk] at hm
  have hself (z : Nat) : word n z %ₘ p = word n z := by
    rw [modByMonic_eq_self_iff (modulus_monic hp), modulus_degree hp]
    exact degree_word_lt n z
  rw [hself, hself] at hm
  exact word_injective hx hy hm

end Residue

end BinaryField
