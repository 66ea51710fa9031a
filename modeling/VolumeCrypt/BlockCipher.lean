import Mathlib.Data.FinEnum
import Mathlib.Data.Fintype.Vector
import VolumeCrypt.ByteString

/-!
# Block ciphers and the CBC mode

A block cipher is a keyed pair of maps on fixed-size blocks, the second undoing
the first. Blocks are finite, so each map is then a bijection and the first also
undoes the second. CBC without padding is built on top of any such cipher.
-/
namespace BlockCipher

open ByteString

/-- A keyed permutation of `n`-byte blocks together with its inverse. -/
structure Cipher (κ : Type) (n : Nat) where
  encrypt : κ → Fixed n → Fixed n
  decrypt : κ → Fixed n → Fixed n
  decrypt_encrypt : ∀ k b, decrypt k (encrypt k b) = b

variable {κ : Type} {n : Nat}

theorem Cipher.encrypt_injective (C : Cipher κ n) (k : κ) : Function.Injective (C.encrypt k) :=
  Function.LeftInverse.injective (C.decrypt_encrypt k)

/-- Decryption is also a right inverse, because blocks are finite. -/
theorem Cipher.encrypt_decrypt (C : Cipher κ n) (k : κ) (b : Fixed n) :
    C.encrypt k (C.decrypt k b) = b := by
  obtain ⟨a, ha⟩ := (Finite.injective_iff_surjective.mp (C.encrypt_injective k)) b
  rw [← ha, C.decrypt_encrypt]

/-- The first `k` blocks of a buffer. -/
def toBlocks (n k : Nat) (b : Bytes) : List (Fixed n) :=
  (List.range k).map fun i => Fixed.ofBytes n (slice b (i * n) n)

def ofBlocks (bs : List (Fixed n)) : Bytes := bs.flatMap List.Vector.toList

@[simp] theorem length_toBlocks (n k : Nat) (b : Bytes) : (toBlocks n k b).length = k := by
  simp [toBlocks]

theorem length_ofBlocks (bs : List (Fixed n)) : (ofBlocks bs).length = bs.length * n := by
  induction bs with
  | nil => simp [ofBlocks]
  | cons x xs ih =>
    simp only [ofBlocks, List.flatMap_cons, List.length_append, List.Vector.toList_length] at ih ⊢
    rw [ih, List.length_cons, Nat.succ_mul, Nat.add_comm]

theorem toBlocks_succ (n k : Nat) (b : Bytes) :
    toBlocks n (k + 1) b = Fixed.ofBytes n (b.take n) :: toBlocks n k (b.drop n) := by
  simp only [toBlocks, List.range_succ_eq_map, List.map_cons, List.map_map, Nat.zero_mul, slice_zero]
  congr 1
  apply List.map_congr_left
  intro i _
  have hi : (i + 1) * n = n + i * n := by rw [Nat.succ_mul, Nat.add_comm]
  simp [slice, hi]

theorem toBlocks_ofBlocks (bs : List (Fixed n)) : toBlocks n bs.length (ofBlocks bs) = bs := by
  induction bs with
  | nil => rfl
  | cons x xs ih =>
    have hx : (ofBlocks (x :: xs)) = x.toList ++ ofBlocks xs := rfl
    rw [List.length_cons, toBlocks_succ, hx, List.take_append_of_le_length (by simp),
      List.drop_append_of_le_length (by simp)]
    simp only [List.take_of_length_le (Nat.le_of_eq (List.Vector.toList_length x)),
      List.drop_of_length_le (Nat.le_of_eq (List.Vector.toList_length x)), Fixed.ofBytes_toList,
      List.nil_append, ih]

theorem ofBlocks_toBlocks {k : Nat} {b : Bytes} (h : b.length = k * n) :
    ofBlocks (toBlocks n k b) = b := by
  induction k generalizing b with
  | zero =>
    have : b = [] := List.eq_nil_of_length_eq_zero (by omega)
    subst b
    rfl
  | succ k ih =>
    have hl : b.length = k * n + n := by rw [h, Nat.succ_mul]
    have hd : (b.drop n).length = k * n := by rw [List.length_drop]; omega
    have ht : (b.take n).length = n := by rw [List.length_take]; omega
    rw [toBlocks_succ]
    change (Fixed.ofBytes n (b.take n)).toList ++ ofBlocks (toBlocks n k (b.drop n)) = b
    rw [Fixed.toList_ofBytes ht, ih hd, List.take_append_drop]

/-- CBC chaining: each block is masked with the previous ciphertext block. -/
def cbcEncryptBlocks (E : Fixed n → Fixed n) (iv : Fixed n) : List (Fixed n) → List (Fixed n)
  | [] => []
  | p :: ps =>
    let c := E (Fixed.xor p iv)
    c :: cbcEncryptBlocks E c ps

def cbcDecryptBlocks (D : Fixed n → Fixed n) (iv : Fixed n) : List (Fixed n) → List (Fixed n)
  | [] => []
  | c :: cs => Fixed.xor (D c) iv :: cbcDecryptBlocks D c cs

@[simp] theorem length_cbcEncryptBlocks (E : Fixed n → Fixed n) (iv : Fixed n) (ps : List (Fixed n)) :
    (cbcEncryptBlocks E iv ps).length = ps.length := by
  induction ps generalizing iv with
  | nil => rfl
  | cons p ps ih => simp [cbcEncryptBlocks, ih]

theorem cbcDecryptBlocks_cbcEncryptBlocks {E D : Fixed n → Fixed n} (h : ∀ b, D (E b) = b)
    (iv : Fixed n) (ps : List (Fixed n)) : cbcDecryptBlocks D iv (cbcEncryptBlocks E iv ps) = ps := by
  induction ps generalizing iv with
  | nil => rfl
  | cons p ps ih => simp only [cbcEncryptBlocks, cbcDecryptBlocks, h, Fixed.xor_xor, ih]

/-- CBC encryption, no padding, of a buffer of whole blocks. -/
def Cipher.cbcEncrypt (C : Cipher κ n) (k : κ) (iv : Fixed n) (b : Bytes) : Bytes :=
  ofBlocks (cbcEncryptBlocks (C.encrypt k) iv (toBlocks n (b.length / n) b))

def Cipher.cbcDecrypt (C : Cipher κ n) (k : κ) (iv : Fixed n) (b : Bytes) : Bytes :=
  ofBlocks (cbcDecryptBlocks (C.decrypt k) iv (toBlocks n (b.length / n) b))

theorem Cipher.length_cbcEncrypt (C : Cipher κ n) (k : κ) (iv : Fixed n) {b : Bytes} {m : Nat}
    (hn : 0 < n) (h : b.length = m * n) : (C.cbcEncrypt k iv b).length = b.length := by
  rw [cbcEncrypt, length_ofBlocks, length_cbcEncryptBlocks, length_toBlocks, h, Nat.mul_div_cancel _ hn]

/-- CBC decryption undoes CBC encryption under the same key and vector. -/
theorem Cipher.cbcDecrypt_cbcEncrypt (C : Cipher κ n) (k : κ) (iv : Fixed n) {b : Bytes} {m : Nat}
    (hn : 0 < n) (h : b.length = m * n) : C.cbcDecrypt k iv (C.cbcEncrypt k iv b) = b := by
  have hl := C.length_cbcEncrypt k iv hn h
  have hm : b.length / n = m := by rw [h, Nat.mul_div_cancel _ hn]
  have hb : (cbcEncryptBlocks (C.encrypt k) iv (toBlocks n m b)).length = m := by simp
  have ht := toBlocks_ofBlocks (cbcEncryptBlocks (C.encrypt k) iv (toBlocks n m b))
  rw [hb] at ht
  rw [cbcDecrypt, hl, hm, cbcEncrypt, hm, ht]
  rw [cbcDecryptBlocks_cbcEncryptBlocks (C.decrypt_encrypt k), ofBlocks_toBlocks h]

end BlockCipher
