import VolumeCrypt.Aes
import VolumeCrypt.XtsCipher

/-!
# The SDK's sector encryption

`EncryptSector` and `xtsGFMul` of `sdk/jvck.go`: one block at a time, with the
tweak doubled by a byte-wise carry loop. On whole-block sectors it leaves the
same bytes as the Rust sector cipher.
-/
namespace SdkXts

open ByteString BlockCipher XtsCipher

/-- The carry loop `for i := 0; i < 16; i++` of `xtsGFMul`, with the carry out of the last byte. -/
def carryLoop : UInt8 → Bytes → Bytes × UInt8
  | carry, [] => ([], carry)
  | carry, b :: bs =>
    let next := b >>> 7
    let r := carryLoop next bs
    ((b <<< 1 ||| carry) :: r.1, r.2)

/-- `xtsGFMul`. -/
def xtsGFMul (t : Block) : Block :=
  let r := carryLoop 0 t.toList
  Fixed.ofBytes 16 (if r.2 ≠ 0 then r.1.modifyHead (· ^^^ 0x87) else r.1)

/-- The block loop of `EncryptSector`; `len` is `len(sector)`. -/
def encryptLoop (E : Block → Block) (len i : Nat) (tweak : Block) (sector : Bytes) : Bytes :=
  if i < len then
    let masked := copyAt sector i (xorBytes (slice sector i 16) tweak.toList)
    let encrypted := copyAt masked i (E (Fixed.ofBytes 16 (slice masked i 16))).toList
    let unmasked := copyAt encrypted i (xorBytes (slice encrypted i 16) tweak.toList)
    encryptLoop E len (i + 16) (xtsGFMul tweak) unmasked
  else sector
termination_by len - i

/-- `EncryptSector`: the buffer it leaves, or its error. -/
def encryptSector (aes : Aes256) (fvek1 fvek2 : Fixed 32) (sectorNumber : UInt64) (sector : Bytes) :
    Except String Bytes :=
  if sector.length = 0 ∨ sector.length % 16 ≠ 0 then
    .error "sector length must be a multiple of 16 bytes"
  else
    let tweak := aes.encrypt fvek2 (Fixed.ofBytes 16 (leBytes 8 sectorNumber.toNat ++ List.replicate 8 0))
    .ok (encryptLoop (aes.encrypt fvek1) sector.length 0 tweak sector)

/-! ## The carry loop doubles -/

theorem byte_shift (b carry : UInt8) (hc : carry.toNat ≤ 1) :
    (b <<< 1 ||| carry).toNat + 256 * (b >>> 7).toNat = 2 * b.toNat + carry.toNat := by
  have hb : b.toNat < 256 := b.toNat_lt
  have hl : (b <<< 1).toNat = 2 ^ 1 * (b.toNat % 128) := by
    rw [UInt8.toNat_shiftLeft]
    change b.toNat <<< 1 % 2 ^ 8 = _
    rw [Nat.shiftLeft_eq]
    omega
  have hr : (b >>> 7).toNat = b.toNat / 128 := by
    rw [UInt8.toNat_shiftRight]
    exact Nat.shiftRight_eq_div_pow _ _
  rw [UInt8.toNat_or, hl, hr, ← Nat.two_pow_add_eq_or_of_lt (by omega)]
  omega

theorem carryLoop_spec (carry : UInt8) (bs : Bytes) (hc : carry.toNat ≤ 1) :
    leNat (carryLoop carry bs).1 + 256 ^ bs.length * (carryLoop carry bs).2.toNat =
      2 * leNat bs + carry.toNat := by
  induction bs generalizing carry with
  | nil => simp [carryLoop, leNat]
  | cons b bs ih =>
    have hb : b.toNat < 256 := b.toNat_lt
    have hs := byte_shift b carry hc
    have hn : (b >>> 7).toNat ≤ 1 := by
      have := (b <<< 1 ||| carry).toNat_lt
      omega
    have hr := ih (b >>> 7) hn
    simp only [carryLoop, leNat, List.length_cons]
    rw [Nat.pow_succ', Nat.mul_assoc]
    omega

@[simp] theorem length_carryLoop (carry : UInt8) (bs : Bytes) : (carryLoop carry bs).1.length = bs.length := by
  induction bs generalizing carry with
  | nil => rfl
  | cons b bs ih => simp [carryLoop, ih]

theorem leNat_xor_head (b m : UInt8) (bs : Bytes) :
    leNat ((b ^^^ m) :: bs) = leNat (b :: bs) ^^^ m.toNat := by
  have hb : b.toNat < 2 ^ 8 := b.toNat_lt
  have hm : m.toNat < 2 ^ 8 := m.toNat_lt
  have hx : b.toNat ^^^ m.toNat < 2 ^ 8 := Nat.xor_lt_two_pow hb hm
  apply Nat.eq_of_testBit_eq
  intro i
  rw [leNat, leNat, UInt8.toNat_xor, Nat.add_comm, Nat.add_comm b.toNat, Nat.testBit_xor]
  change (2 ^ 8 * leNat bs + _).testBit i = ((2 ^ 8 * leNat bs + _).testBit i ^^ _)
  rw [Nat.testBit_two_pow_mul_add _ hx, Nat.testBit_two_pow_mul_add _ hb]
  split
  · rw [Nat.testBit_xor]
  · have hmi : m.toNat.testBit i = false :=
      Nat.testBit_lt_two_pow (hm.trans_le (Nat.pow_le_pow_right (by decide) (by omega)))
    rw [hmi, Bool.xor_false]

/-- The byte-wise carry loop and the two-word shift are the same function. -/
theorem xtsGFMul_eq_gf128Mul (t : Block) : xtsGFMul t = gf128Mul t := by
  have hlen : (carryLoop 0 t.toList).1.length = 16 := by simp
  have hspec := carryLoop_spec 0 t.toList (by decide)
  have hlt := leNat_lt (carryLoop 0 t.toList).1
  have htl := leNat_block_lt t
  rw [hlen] at hlt
  simp only [List.Vector.toList_length, UInt8.toNat_zero, Nat.add_zero] at hspec
  have hpow : (256 : Nat) ^ 16 = 2 ^ 128 := by decide
  rw [hpow] at hspec hlt
  apply List.Vector.eq
  apply leNat_injective (by simp)
  rw [leNat_gf128Mul, BinaryField.timesX]
  have hlow : leNat (carryLoop 0 t.toList).1 = (leNat t.toList <<< 1) % 2 ^ 128 := by
    rw [Nat.shiftLeft_eq]
    omega
  have htop : (leNat t.toList).testBit 127 = decide ((carryLoop 0 t.toList).2 ≠ 0) := by
    rw [Nat.testBit_eq_decide_div_mod_eq, decide_eq_decide, ne_eq, ← UInt8.toNat_inj, UInt8.toNat_zero]
    omega
  rw [xtsGFMul, Fixed.toList_ofBytes (by split <;> simp), ← hlow, htop]
  by_cases hc : (carryLoop 0 t.toList).2 ≠ 0
  · rw [if_pos hc, if_pos (decide_eq_true hc)]
    obtain ⟨b, bs, he⟩ := List.exists_cons_of_length_eq_add_one hlen
    rw [he, List.modifyHead_cons]
    exact leNat_xor_head b 0x87 bs
  · rw [if_neg hc, if_neg (by simpa using hc), Nat.xor_zero]

/-! ## The block loop -/

/-- One round of the SDK's loop writes the masked, encrypted and unmasked block. -/
theorem encryptLoop_step (E : Block → Block) (i : Nat) (tweak : Block) {sector : Bytes}
    (h : i + 16 ≤ sector.length) :
    let masked := copyAt sector i (xorBytes (slice sector i 16) tweak.toList)
    let encrypted := copyAt masked i (E (Fixed.ofBytes 16 (slice masked i 16))).toList
    copyAt encrypted i (xorBytes (slice encrypted i 16) tweak.toList) =
      copyAt sector i (Fixed.xor (E (Fixed.xor (Fixed.ofBytes 16 (slice sector i 16)) tweak)) tweak).toList := by
  intro masked encrypted
  have hs : (slice sector i 16).length = 16 := length_slice_of_le h
  have hx : (xorBytes (slice sector i 16) tweak.toList).length = 16 := by simp [hs]
  have hm : slice masked i 16 = xorBytes (slice sector i 16) tweak.toList :=
    slice_copyAt_same (by omega) hx
  have hlen : masked.length = sector.length := length_copyAt (by omega)
  have he : slice encrypted i 16 = (E (Fixed.ofBytes 16 (slice masked i 16))).toList :=
    slice_copyAt_same (by omega) (by simp)
  have hblock : Fixed.ofBytes 16 (slice masked i 16) =
      Fixed.xor (Fixed.ofBytes 16 (slice sector i 16)) tweak := by
    apply List.Vector.eq
    rw [hm, Fixed.toList_ofBytes hx, Fixed.toList_xor, Fixed.toList_ofBytes hs]
  rw [he, hblock, ← Fixed.toList_xor]
  change copyAt (copyAt masked i _) i _ = _
  rw [copyAt_copyAt (by omega) (by simp), copyAt_copyAt (by omega) (by simp [hs])]

theorem encryptLoop_eq_scalarLoop (E : Block → Block) (n off : Nat) (tweak : Block) (sector : Bytes)
    (hl : sector.length = n * 16) :
    encryptLoop E (n * 16) (off * 16) tweak sector = scalarLoop E n off tweak sector := by
  induction hd : n - off generalizing off tweak sector with
  | zero => rw [encryptLoop, if_neg (by omega), scalarLoop, if_neg (by omega)]
  | succ d ih =>
    have hstep := encryptLoop_step E (off * 16) tweak (show off * 16 + 16 ≤ sector.length by omega)
    have hi : off * 16 + 16 = (off + 1) * 16 := (Nat.succ_mul off 16).symm
    rw [encryptLoop, if_pos (by omega), scalarLoop, if_pos (by omega)]
    simp only at hstep ⊢
    rw [hstep, xtsGFMul_eq_gf128Mul, hi]
    apply ih
    · rw [length_copyAt (by simp; omega), hl]
    · omega

/-- The SDK's sector encryption leaves exactly the bytes of the Rust sector cipher, and its carry
loop is the Rust tweak multiplication on every block. -/
theorem sdk_xts_eq_rust_xts (aes : Aes256) (fvek1 fvek2 : Fixed 32) (sectorNumber : UInt64) (sector : Bytes)
    (hne : sector ≠ []) (hmul : sector.length % 16 = 0) :
    encryptSector aes fvek1 fvek2 sectorNumber sector =
        .ok (XtsCipher.encryptSector aes ⟨fvek1, fvek2⟩ sectorNumber sector) ∧
      ∀ t, xtsGFMul t = gf128Mul t := by
  refine ⟨?_, xtsGFMul_eq_gf128Mul⟩
  have hp := List.length_pos_of_ne_nil hne
  have hl : sector.length = sector.length / 16 * 16 := by omega
  have htweak : leBytes 8 sectorNumber.toNat ++ List.replicate 8 0 = leBytes 16 sectorNumber.toNat := by
    apply leNat_injective (by simp)
    have hs := sectorNumber.toNat_lt
    rw [leNat_append, leNat_leBytes_of_lt hs, leNat_leBytes_of_lt (by omega)]
    simp [List.replicate, leNat]
  have hloop := encryptLoop_eq_scalarLoop (aes.encrypt fvek1) (sector.length / 16) 0
    (firstTweak aes fvek2 sectorNumber) sector hl
  have hscalar := scalarLoop_xtsPrefix (aes.encrypt fvek1) (firstTweak aes fvek2 sectorNumber)
    (sector.length / 16) 0 sector (Nat.zero_le _)
  rw [xtsPrefix_zero, Function.iterate_zero_apply] at hscalar
  rw [← hl, Nat.zero_mul, hscalar] at hloop
  rw [encryptSector, if_neg (by omega), htweak]
  simp only
  change Except.ok (encryptLoop _ _ 0 (firstTweak aes fvek2 sectorNumber) sector) = _
  rw [hloop, XtsCipher.encryptSector, encryptSectorInner, sectorInner_eq]

/-- One 512-byte sector under AES-256. -/
theorem sdk_xts_eq_rust_xts_512 :
    encryptSector Aes.aes256 (List.Vector.replicate 32 1) (List.Vector.replicate 32 2) 7 (List.replicate 512 5) =
      .ok (XtsCipher.encryptSector Aes.aes256 ⟨List.Vector.replicate 32 1, List.Vector.replicate 32 2⟩ 7
        (List.replicate 512 5)) := by
  have hl : (List.replicate 512 (5 : UInt8)).length = 512 := List.length_replicate
  have hne : List.replicate 512 (5 : UInt8) ≠ [] := List.ne_nil_of_length_pos (by rw [hl]; decide)
  exact (sdk_xts_eq_rust_xts Aes.aes256 _ _ 7 _ hne (by rw [hl])).1

end SdkXts
