import VolumeCrypt.BinaryField
import VolumeCrypt.BlockCipher

/-!
# The shared AES-256-XTS sector cipher

`lib/common/src/xts.rs`: eight blocks at a time, then a scalar tail, with the
tweak carried from one loop into the other. AES-256 is a parameter. The standard
sector cipher it is compared with numbers the blocks and multiplies the first
tweak by `x^i` in the quotient ring.
-/
namespace XtsCipher

open ByteString BlockCipher Polynomial

abbrev Block := Fixed 16

/-- AES-256: 32-byte keys, 16-byte blocks. -/
abbrev Aes256 := Cipher (Fixed 32) 16

/-- `BATCH`: blocks processed in one parallel batch. -/
def BATCH : Nat := 8

/-- `gf128_mul`: the two little-endian words are shifted left by one bit. -/
def gf128Mul (t : Block) : Block :=
  let lo := UInt64.ofNat (leNat (slice t.toList 0 8))
  let hi := UInt64.ofNat (leNat (slice t.toList 8 8))
  let carry : UInt64 := if hi >>> 63 ≠ 0 then 0x87 else 0
  Fixed.ofBytes 16
    (leBytes 8 ((lo <<< 1) ^^^ carry).toNat ++ leBytes 8 ((hi <<< 1) ||| (lo >>> 63)).toNat)

structure XtsVolumeCipher where
  key1 : Fixed 32
  key2 : Fixed 32
  deriving DecidableEq

/-- Blocks `off..off + ts.len()` of the sector, each masked with its tweak, passed through the
block function and masked again. -/
def processBlocks (E : Block → Block) (ts : List Block) (off : Nat) (sector : Bytes) : Bytes :=
  let batch := List.zipWith Fixed.xor (toBlocks 16 ts.length (sector.drop (off * 16))) ts
  copyAt sector (off * 16) (ofBlocks (List.zipWith Fixed.xor (batch.map E) ts))

/-- `while off + BATCH <= n`: the parallel path. -/
def batchLoop (E : Block → Block) (n off : Nat) (tw : Block) (sector : Bytes) : Nat × Block × Bytes :=
  if off + BATCH ≤ n then
    batchLoop E n (off + BATCH) (gf128Mul (gf128Mul^[BATCH - 1] tw))
      (processBlocks E (List.iterate gf128Mul tw BATCH) off sector)
  else (off, tw, sector)
termination_by n - off
decreasing_by
  simp only [BATCH] at *
  omega

/-- `while off < n`: the scalar tail. -/
def scalarLoop (E : Block → Block) (n off : Nat) (tw : Block) (sector : Bytes) : Bytes :=
  if off < n then
    let block := Fixed.ofBytes 16 (slice sector (off * 16) 16)
    let ga := E (Fixed.xor block tw)
    scalarLoop E n (off + 1) (gf128Mul tw) (copyAt sector (off * 16) (Fixed.xor ga tw).toList)
  else sector
termination_by n - off

/-- `T_0`: the sector number as a 128-bit little-endian block under the tweak key. -/
def firstTweak (aes : Aes256) (key2 : Fixed 32) (relSector : UInt64) : Block :=
  aes.encrypt key2 (Fixed.ofBytes 16 (leBytes 16 relSector.toNat))

/-- The common body of the two sector functions, which differ in the block function only. -/
def sectorInner (E : Block → Block) (tw : Block) (sector : Bytes) : Bytes :=
  let n := sector.length / 16
  let r := batchLoop E n 0 tw sector
  scalarLoop E n r.1 r.2.1 r.2.2

def encryptSectorInner (aes : Aes256) (c : XtsVolumeCipher) (relSector : UInt64) (sector : Bytes) : Bytes :=
  sectorInner (aes.encrypt c.key1) (firstTweak aes c.key2 relSector) sector

def decryptSectorInner (aes : Aes256) (c : XtsVolumeCipher) (relSector : UInt64) (sector : Bytes) : Bytes :=
  sectorInner (aes.decrypt c.key1) (firstTweak aes c.key2 relSector) sector

def encryptSector (aes : Aes256) (c : XtsVolumeCipher) (relSector : UInt64) (sector : Bytes) : Bytes :=
  encryptSectorInner aes c relSector sector

def decryptSector (aes : Aes256) (c : XtsVolumeCipher) (relSector : UInt64) (sector : Bytes) : Bytes :=
  decryptSectorInner aes c relSector sector

def encryptArea (aes : Aes256) (c : XtsVolumeCipher) (buf : Bytes) (sectorSize : Nat)
    (firstRelSector : UInt64) : Bytes :=
  forChunks sectorSize (fun si sector => encryptSectorInner aes c (firstRelSector + UInt64.ofNat si) sector)
    0 buf

def decryptArea (aes : Aes256) (c : XtsVolumeCipher) (buf : Bytes) (sectorSize : Nat)
    (firstRelSector : UInt64) : Bytes :=
  forChunks sectorSize (fun si sector => decryptSectorInner aes c (firstRelSector + UInt64.ofNat si) sector)
    0 buf

/-! ## Tweaks as residues -/

/-- The modulus of the tweak ring, `x^128 + x^7 + x^2 + x + 1`. -/
noncomputable def xtsModulus : (ZMod 2)[X] := X ^ 128 + X ^ 7 + X ^ 2 + X + 1

theorem word_reduction : BinaryField.word 128 0x87 = X ^ 7 + X ^ 2 + X + 1 := by
  ext i
  rw [BinaryField.coeff_word]
  simp only [coeff_add, coeff_X_pow, coeff_X, coeff_one]
  rcases Nat.lt_or_ge i 8 with hi | hi
  · interval_cases i <;> decide
  · have hb : (0x87 : Nat).testBit i = false :=
      Nat.testBit_lt_two_pow ((by decide : 0x87 < 2 ^ 8).trans_le (Nat.pow_le_pow_right (by decide) hi))
    simp [hb, show i ≠ 7 by omega, show i ≠ 2 by omega, show 1 ≠ i by omega, show i ≠ 0 by omega]

theorem xtsModulus_eq : xtsModulus = X ^ 128 + BinaryField.word 128 0x87 := by
  rw [word_reduction]
  unfold xtsModulus
  generalize (X ^ 128 : (ZMod 2)[X]) = a
  ring

/-- A block as an element of the tweak ring, bit `j` of byte `i` being the coefficient of
`x^(8 i + j)`. -/
noncomputable def blockValue (b : Block) : AdjoinRoot xtsModulus :=
  BinaryField.value xtsModulus 128 (leNat b.toList)

theorem leNat_block_lt (b : Block) : leNat b.toList < 2 ^ 128 := by
  have h := leNat_lt b.toList
  rw [List.Vector.toList_length] at h
  exact h

theorem blockValue_injective : Function.Injective blockValue := by
  intro a b h
  apply List.Vector.eq
  apply leNat_injective (by simp)
  exact BinaryField.value_injective xtsModulus_eq (leNat_block_lt a) (leNat_block_lt b) h

/-- A block is its two 64-bit halves. -/
theorem leNat_block_split (b : Block) :
    leNat b.toList = leNat (slice b.toList 0 8) + 2 ^ 64 * leNat (slice b.toList 8 8) := by
  have hs : slice b.toList 0 8 ++ slice b.toList 8 8 = b.toList := by
    rw [slice_append_slice b.toList 0 8 8]
    have := slice_all b.toList
    rwa [List.Vector.toList_length] at this
  have hl : (slice b.toList 0 8).length = 8 := length_slice_of_le (by simp)
  conv => lhs; rw [← hs]
  rw [leNat_append, hl, show 256 ^ 8 = 2 ^ 64 by decide]

/-- The word arithmetic behind `gf128_mul`, on the two halves of a 128-bit number. -/
theorem shift_halves {lo c : Nat} (hi : Nat) (hlo : lo < 2 ^ 64) (hc : c < 2 ^ 64) :
    ((lo <<< 1) % 2 ^ 64 ^^^ c) + 2 ^ 64 * ((hi <<< 1) % 2 ^ 64 ||| lo >>> 63) =
      ((lo + 2 ^ 64 * hi) <<< 1) % 2 ^ 128 ^^^ c := by
  have hx : (lo <<< 1) % 2 ^ 64 ^^^ c < 2 ^ 64 := Nat.xor_lt_two_pow (Nat.mod_lt _ (by decide)) hc
  apply Nat.eq_of_testBit_eq
  intro i
  rw [Nat.add_comm, Nat.testBit_two_pow_mul_add _ hx, Nat.testBit_xor, Nat.testBit_xor,
    Nat.testBit_or, Nat.testBit_mod_two_pow, Nat.testBit_mod_two_pow, Nat.testBit_mod_two_pow,
    Nat.testBit_shiftLeft, Nat.testBit_shiftLeft, Nat.testBit_shiftLeft, Nat.testBit_shiftRight,
    Nat.add_comm lo, Nat.testBit_two_pow_mul_add _ hlo]
  by_cases h₁ : i < 64
  · simp [h₁, show i - 1 < 64 by omega, show i < 128 by omega]
  · have hci : c.testBit i = false :=
      Nat.testBit_lt_two_pow (hc.trans_le (Nat.pow_le_pow_right (by decide) (by omega)))
    by_cases h₂ : i = 64
    · subst h₂
      simp [hci]
    · have hl : lo.testBit (63 + (i - 64)) = false :=
        Nat.testBit_lt_two_pow (hlo.trans_le (Nat.pow_le_pow_right (by decide) (by omega)))
      have he : i - 64 - 1 = i - 1 - 64 := by omega
      simp [h₁, hci, hl, he, show ¬ i - 1 < 64 by omega, show 1 ≤ i - 64 by omega, show 1 ≤ i by omega]
      by_cases h₃ : i < 128
      · simp [h₃, show i - 64 < 64 by omega]
      · simp [h₃, show ¬ i - 64 < 64 by omega]

/-- `gf128_mul` is the shift of a 128-bit word with fold-back `0x87`. -/
theorem leNat_gf128Mul (t : Block) :
    leNat (gf128Mul t).toList = BinaryField.timesX 128 0x87 (leNat t.toList) := by
  have hlo : leNat (slice t.toList 0 8) < 2 ^ 64 := by
    have h := leNat_lt (slice t.toList 0 8)
    rwa [length_slice_of_le (by simp)] at h
  have hhi : leNat (slice t.toList 8 8) < 2 ^ 64 := by
    have h := leNat_lt (slice t.toList 8 8)
    rwa [length_slice_of_le (by simp)] at h
  rw [leNat_block_split t]
  generalize hL : leNat (slice t.toList 0 8) = lo at *
  generalize hH : leNat (slice t.toList 8 8) = hi at *
  have hbit : (lo + 2 ^ 64 * hi).testBit 127 = hi.testBit 63 := by
    rw [Nat.add_comm, Nat.testBit_two_pow_mul_add _ hlo]
    simp
  have htop : (UInt64.ofNat hi >>> 63 ≠ 0) ↔ hi.testBit 63 = true := by
    rw [ne_eq, ← UInt64.toNat_inj, UInt64.toNat_shiftRight, UInt64.toNat_ofNat', Nat.mod_eq_of_lt hhi,
      Nat.testBit_eq_decide_div_mod_eq, decide_eq_true_iff, Nat.shiftRight_eq_div_pow]
    change ¬ hi / 2 ^ 63 = 0 ↔ _
    omega
  have hcarry : (if UInt64.ofNat hi >>> 63 ≠ 0 then (0x87 : UInt64) else 0).toNat =
      if (lo + 2 ^ 64 * hi).testBit 127 then 0x87 else 0 := by
    rw [hbit]
    by_cases hb : hi.testBit 63 = true
    · rw [if_pos (htop.mpr hb), if_pos hb]
      rfl
    · rw [if_neg (fun h => hb (htop.mp h)), if_neg hb]
      rfl
  have hsh := shift_halves (c := if (lo + 2 ^ 64 * hi).testBit 127 then 0x87 else 0) hi hlo (by split <;> decide)
  rw [gf128Mul, hL, hH, Fixed.toList_ofBytes (by simp), leNat_append, leNat_leBytes_of_lt (UInt64.toNat_lt _),
    leNat_leBytes_of_lt (UInt64.toNat_lt _), length_leBytes, UInt64.toNat_xor, UInt64.toNat_or, hcarry,
    UInt64.toNat_shiftLeft, UInt64.toNat_shiftLeft, UInt64.toNat_shiftRight, UInt64.toNat_ofNat',
    UInt64.toNat_ofNat', Nat.mod_eq_of_lt hlo, Nat.mod_eq_of_lt hhi]
  exact hsh

theorem blockValue_gf128Mul (t : Block) :
    blockValue (gf128Mul t) = blockValue t * AdjoinRoot.root xtsModulus := by
  rw [blockValue, leNat_gf128Mul]
  exact BinaryField.value_timesX xtsModulus_eq (by decide) _

theorem blockValue_gf128Mul_iterate (t : Block) (i : Nat) :
    blockValue (gf128Mul^[i] t) = blockValue t * AdjoinRoot.root xtsModulus ^ i := by
  induction i with
  | zero => simp
  | succ i ih => rw [Function.iterate_succ_apply', blockValue_gf128Mul, ih, pow_succ, mul_assoc]

/-! ## Both loops compute the block-by-block sector cipher -/

/-- One block under its tweak. -/
def whiten (E : Block → Block) (t b : Block) : Block := Fixed.xor (E (Fixed.xor b t)) t

def blockAt (sector : Bytes) (i : Nat) : Block := Fixed.ofBytes 16 (slice sector (i * 16) 16)

/-- The sector after its first `k` blocks have been processed. -/
def xtsPrefix (E : Block → Block) (tw : Block) (k : Nat) (sector : Bytes) : Bytes :=
  ofBlocks ((List.range k).map fun i => whiten E (gf128Mul^[i] tw) (blockAt sector i)) ++
    sector.drop (k * 16)

variable (E : Block → Block) (tw : Block)

@[simp] theorem xtsPrefix_zero (sector : Bytes) : xtsPrefix E tw 0 sector = sector := by
  simp [xtsPrefix, ofBlocks]

theorem length_processed (k : Nat) (sector : Bytes) :
    (ofBlocks ((List.range k).map fun i => whiten E (gf128Mul^[i] tw) (blockAt sector i))).length =
      k * 16 := by
  rw [length_ofBlocks, List.length_map, List.length_range]

theorem length_xtsPrefix {k : Nat} {sector : Bytes} (h : k * 16 ≤ sector.length) :
    (xtsPrefix E tw k sector).length = sector.length := by
  rw [xtsPrefix, List.length_append, length_processed, List.length_drop]
  omega

theorem drop_xtsPrefix (k : Nat) (sector : Bytes) :
    (xtsPrefix E tw k sector).drop (k * 16) = sector.drop (k * 16) := by
  have h := length_processed E tw k sector
  rw [xtsPrefix, List.drop_append_of_le_length (by omega), List.drop_of_length_le (by omega), List.nil_append]

theorem toBlocks_drop (k m : Nat) (sector : Bytes) :
    toBlocks 16 m (sector.drop (k * 16)) = (List.range m).map fun i => blockAt sector (k + i) := by
  apply List.map_congr_left
  intro i _
  rw [blockAt, slice, slice, List.drop_drop, Nat.add_mul]

theorem iterate_from (k m : Nat) :
    List.iterate gf128Mul (gf128Mul^[k] tw) m = (List.range m).map fun i => gf128Mul^[k + i] tw := by
  rw [← List.range_map_iterate]
  apply List.map_congr_left
  intro i _
  rw [Nat.add_comm, Function.iterate_add_apply]

/-- Processing the next `m` blocks extends the processed prefix by `m`. -/
theorem processBlocks_xtsPrefix (k m : Nat) (sector : Bytes) :
    processBlocks E (List.iterate gf128Mul (gf128Mul^[k] tw) m) k (xtsPrefix E tw k sector) =
      xtsPrefix E tw (k + m) sector := by
  have hp := length_processed E tw k sector
  have hnew : List.zipWith Fixed.xor
      ((List.zipWith Fixed.xor ((List.range m).map fun i => blockAt sector (k + i))
        ((List.range m).map fun i => gf128Mul^[k + i] tw)).map E)
      ((List.range m).map fun i => gf128Mul^[k + i] tw) =
      (List.range m).map fun i => whiten E (gf128Mul^[k + i] tw) (blockAt sector (k + i)) := by
    simp only [List.zipWith_map, List.zipWith_self, List.map_map]
    rfl
  rw [processBlocks, List.length_iterate, drop_xtsPrefix, toBlocks_drop, iterate_from, hnew]
  rw [copyAt, xtsPrefix, xtsPrefix, List.take_append_of_le_length (by omega), List.take_of_length_le (by omega)]
  rw [length_ofBlocks, List.length_map, List.length_range, List.drop_append, List.drop_of_length_le (by omega)]
  rw [List.nil_append, hp, Nat.add_sub_cancel_left, List.drop_drop, ← Nat.add_mul, List.range_add,
    List.map_append, List.map_map]
  congr 1
  exact (List.flatMap_append).symm

theorem scalar_step (off : Nat) (t : Block) (sector : Bytes) :
    copyAt sector (off * 16)
        (Fixed.xor (E (Fixed.xor (Fixed.ofBytes 16 (slice sector (off * 16) 16)) t)) t).toList =
      processBlocks E [t] off sector := by
  simp [processBlocks, toBlocks, ofBlocks, slice]

theorem scalarLoop_xtsPrefix (n off : Nat) (sector : Bytes) (h : off ≤ n) :
    scalarLoop E n off (gf128Mul^[off] tw) (xtsPrefix E tw off sector) = xtsPrefix E tw n sector := by
  induction hd : n - off generalizing off with
  | zero =>
    have : off = n := by omega
    subst this
    rw [scalarLoop, if_neg (by omega)]
  | succ d ih =>
    have hstep := processBlocks_xtsPrefix E tw off 1 sector
    rw [scalarLoop, if_pos (by omega)]
    simp only [scalar_step]
    rw [List.iterate, List.iterate] at hstep
    rw [hstep, ← Function.iterate_succ_apply' gf128Mul]
    exact ih (off + 1) (by omega) (by omega)

/-- The batch loop stops with a whole number of batches done and the tweak of the next block. -/
theorem batchLoop_xtsPrefix (n off : Nat) (sector : Bytes) (h : off ≤ n) :
    ∃ k ≤ n, batchLoop E n off (gf128Mul^[off] tw) (xtsPrefix E tw off sector) =
      (k, gf128Mul^[k] tw, xtsPrefix E tw k sector) := by
  induction hd : n - off using Nat.strongRecOn generalizing off with
  | ind d ih =>
    rw [batchLoop]
    split
    · rename_i hlt
      have ht : gf128Mul (gf128Mul^[BATCH - 1] (gf128Mul^[off] tw)) = gf128Mul^[off + BATCH] tw := by
        rw [← Function.iterate_succ_apply' gf128Mul, ← Function.iterate_add_apply, Nat.add_comm off]
        rfl
      rw [processBlocks_xtsPrefix, ht]
      exact ih (n - (off + BATCH)) (by simp only [BATCH] at *; omega) (off + BATCH) hlt rfl
    · exact ⟨off, h, rfl⟩

/-- The source's sector loop is the block-by-block cipher on every block count. -/
theorem sectorInner_eq (sector : Bytes) :
    sectorInner E tw sector = xtsPrefix E tw (sector.length / 16) sector := by
  obtain ⟨k, hk, hb⟩ := batchLoop_xtsPrefix E tw (sector.length / 16) 0 sector (Nat.zero_le _)
  have hs := scalarLoop_xtsPrefix E tw (sector.length / 16) k sector hk
  rw [xtsPrefix_zero, Function.iterate_zero_apply] at hb
  rw [sectorInner, hb, hs]

theorem length_sectorInner (sector : Bytes) : (sectorInner E tw sector).length = sector.length := by
  rw [sectorInner_eq, length_xtsPrefix E tw (Nat.div_mul_le_self _ _)]

theorem slice_ofBlocks {bs : List Block} {i : Nat} (h : i < bs.length) (rest : Bytes) :
    Fixed.ofBytes 16 (slice (ofBlocks bs ++ rest) (i * 16) 16) = bs[i] := by
  have hl := length_ofBlocks bs
  have ht := toBlocks_ofBlocks bs
  rw [slice_append_left rest (by omega)]
  have hi : (toBlocks 16 bs.length (ofBlocks bs))[i]? = bs[i]? := by rw [ht]
  rw [List.getElem?_eq_getElem h] at hi
  simpa [toBlocks, h] using hi

theorem blockAt_sectorInner (sector : Bytes) (i : Nat) (h : i < sector.length / 16) :
    blockAt (sectorInner E tw sector) i = whiten E (gf128Mul^[i] tw) (blockAt sector i) := by
  rw [sectorInner_eq, xtsPrefix, blockAt, slice_ofBlocks (by simpa using h)]
  simp

theorem drop_sectorInner (sector : Bytes) :
    (sectorInner E tw sector).drop (sector.length / 16 * 16) = sector.drop (sector.length / 16 * 16) := by
  rw [sectorInner_eq, drop_xtsPrefix]

/-- A buffer is its whole blocks and its trailing bytes. -/
theorem eq_of_blocks {a b : Bytes} (hl : a.length = b.length)
    (hb : ∀ i < a.length / 16, blockAt a i = blockAt b i)
    (ht : a.drop (a.length / 16 * 16) = b.drop (a.length / 16 * 16)) : a = b := by
  have hsplit (c : Bytes) (k : Nat) (hc : k * 16 ≤ c.length) :
      ofBlocks ((List.range k).map (blockAt c)) ++ c.drop (k * 16) = c := by
    have hlen : (c.take (k * 16)).length = k * 16 := by rw [List.length_take]; omega
    have hbk : (List.range k).map (blockAt c) = toBlocks 16 k (c.take (k * 16)) := by
      apply List.map_congr_left
      intro i hi
      rw [List.mem_range] at hi
      rw [blockAt, ← slice_zero c (k * 16), slice_slice c (by omega), Nat.zero_add]
    rw [hbk, ofBlocks_toBlocks hlen, List.take_append_drop]
  rw [← hsplit a (a.length / 16) (Nat.div_mul_le_self _ _),
    ← hsplit b (a.length / 16) (by rw [hl]; exact Nat.div_mul_le_self _ _), ht]
  congr 2
  apply List.map_congr_left
  intro i hi
  exact hb i (List.mem_range.mp hi)

/-- Two block functions that undo each other give sector functions that do. -/
theorem sectorInner_inverse {D : Block → Block} (h : ∀ b, D (E b) = b) (sector : Bytes) :
    sectorInner D tw (sectorInner E tw sector) = sector := by
  have hl := length_sectorInner E tw sector
  have hl' := length_sectorInner D tw (sectorInner E tw sector)
  apply eq_of_blocks (by rw [hl', hl])
  · intro i hi
    rw [hl', hl] at hi
    rw [blockAt_sectorInner D tw _ i (by rw [hl]; exact hi), blockAt_sectorInner E tw _ i hi]
    rw [whiten, whiten, Fixed.xor_xor, h, Fixed.xor_xor]
  · have ht := drop_sectorInner D tw (sectorInner E tw sector)
    rw [hl] at ht
    rw [hl', hl, ht, drop_sectorInner]

/-! ## The standard cipher -/

/-- The tweak of block `i`: the block that stands for `T_0 · x^i` in the tweak ring. -/
noncomputable def standardTweak (t : Block) (i : Nat) : Block :=
  Function.invFun blockValue (blockValue t * AdjoinRoot.root xtsModulus ^ i)

theorem standardTweak_eq (t : Block) (i : Nat) : standardTweak t i = gf128Mul^[i] t := by
  rw [standardTweak, ← blockValue_gf128Mul_iterate]
  exact Function.leftInverse_invFun blockValue_injective _

/-- `T_0 · x^i` always has a block, so the tweak represents the product. -/
theorem blockValue_standardTweak (t : Block) (i : Nat) :
    blockValue (standardTweak t i) = blockValue t * AdjoinRoot.root xtsModulus ^ i := by
  rw [standardTweak_eq, blockValue_gf128Mul_iterate]

/-- Standard XTS without ciphertext stealing: `q` is the encryption of `p` as data unit `rel`. -/
structure StandardXts (aes : Aes256) (c : XtsVolumeCipher) (rel : UInt64) (p q : Bytes) : Prop where
  length : q.length = p.length
  block : ∀ i < p.length / 16, blockAt q i =
    Fixed.xor (aes.encrypt c.key1 (Fixed.xor (blockAt p i) (standardTweak (firstTweak aes c.key2 rel) i)))
      (standardTweak (firstTweak aes c.key2 rel) i)
  tail : q.drop (p.length / 16 * 16) = p.drop (p.length / 16 * 16)

/-- An area function that treats a buffer as consecutive sectors numbered from the given one. -/
structure SectorBySector (area : Bytes → Nat → UInt64 → Bytes) (sector : UInt64 → Bytes → Bytes) : Prop where
  slice : ∀ buf ss first k, 0 < ss → (k + 1) * ss ≤ buf.length →
    ByteString.slice (area buf ss first) (k * ss) ss =
      sector (first + UInt64.ofNat k) (ByteString.slice buf (k * ss) ss)
  short : ∀ buf ss first, 0 < buf.length → buf.length ≤ ss → area buf ss first = sector first buf
  split : ∀ a b ss first k, 0 < ss → a.length = k * ss →
    area (a ++ b) ss first = area a ss first ++ area b ss (first + UInt64.ofNat k)

theorem forChunks_sectorBySector {f : UInt64 → Bytes → Bytes} (hf : ∀ r c, (f r c).length = c.length) :
    SectorBySector (fun buf ss first => forChunks ss (fun si s => f (first + UInt64.ofNat si) s) 0 buf) f where
  slice buf ss first k hs hk := by
    rw [slice_forChunks hs (fun _ _ => hf _ _) 0 k buf hk, Nat.zero_add]
  short buf ss first h₀ hl := by
    have hne : buf ≠ [] := List.ne_nil_of_length_pos h₀
    rw [forChunks_cons (by omega) _ _ hne, List.take_of_length_le hl, List.drop_of_length_le hl,
      forChunks_nil, List.append_nil]
    simp
  split a b ss first k hs ha := by
    rw [forChunks_append hs _ 0 k a b ha, Nat.add_comm 0 k, forChunks_shift]
    simp only [UInt64.ofNat_add, UInt64.add_assoc]

theorem encryptSector_standard (aes : Aes256) (c : XtsVolumeCipher) (rel : UInt64) (sector : Bytes) :
    StandardXts aes c rel sector (encryptSector aes c rel sector) where
  length := length_sectorInner _ _ _
  block i hi := by
    rw [standardTweak_eq]
    exact blockAt_sectorInner _ _ sector i hi
  tail := drop_sectorInner _ _ _

theorem decryptSector_encryptSector (aes : Aes256) (c : XtsVolumeCipher) (rel : UInt64) (sector : Bytes) :
    decryptSector aes c rel (encryptSector aes c rel sector) = sector :=
  sectorInner_inverse _ _ (aes.decrypt_encrypt c.key1) sector

theorem encryptSector_decryptSector (aes : Aes256) (c : XtsVolumeCipher) (rel : UInt64) (sector : Bytes) :
    encryptSector aes c rel (decryptSector aes c rel sector) = sector :=
  sectorInner_inverse _ _ (aes.encrypt_decrypt c.key1) sector

/-- The batched sector cipher is standard XTS on every buffer and every key pair, with the tweaks
`T_0 · x^i`; both directions undo each other, and areas are processed sector by sector. -/
theorem xts_batched_is_standard (aes : Aes256) (c : XtsVolumeCipher) :
    (∀ rel i, blockValue (standardTweak (firstTweak aes c.key2 rel) i) =
      blockValue (firstTweak aes c.key2 rel) * AdjoinRoot.root xtsModulus ^ i) ∧
    (∀ rel sector, StandardXts aes c rel sector (encryptSector aes c rel sector)) ∧
    (∀ rel sector, decryptSector aes c rel (encryptSector aes c rel sector) = sector) ∧
    (∀ rel sector, encryptSector aes c rel (decryptSector aes c rel sector) = sector) ∧
    SectorBySector (encryptArea aes c) (encryptSector aes c) ∧
    SectorBySector (decryptArea aes c) (decryptSector aes c) :=
  ⟨fun _ _ => blockValue_standardTweak _ _, encryptSector_standard aes c, decryptSector_encryptSector aes c,
    encryptSector_decryptSector aes c,
    forChunks_sectorBySector fun _ _ => length_sectorInner _ _ _,
    forChunks_sectorBySector fun _ _ => length_sectorInner _ _ _⟩

end XtsCipher
