import VolumeCrypt.BlockCipher

/-!
# AES-256

The block cipher of FIPS 197 with 256-bit keys, over byte arrays. Each round layer is
undone by its inverse layer, so decryption undoes encryption under every key.
-/
namespace Aes

open ByteString BlockCipher

/-! ## Bytes as elements of GF(2^8) -/

/-- Multiplication by `x` modulo `x^8 + x^4 + x^3 + x + 1`. -/
def xtime (b : UInt8) : UInt8 := (b <<< 1) ^^^ ((b >>> 7) * 0x1b)

/-- The substitution table of FIPS 197, row by row, the byte of column 0 first. -/
def sboxRows : List Nat :=
  [0x637c777bf26b6fc53001672bfed7ab76, 0xca82c97dfa5947f0add4a2af9ca472c0,
   0xb7fd9326363ff7cc34a5e5f171d83115, 0x04c723c31896059a071280e2eb27b275,
   0x09832c1a1b6e5aa0523bd6b329e32f84, 0x53d100ed20fcb15b6acbbe394a4c58cf,
   0xd0efaafb434d338545f9027f503c9fa8, 0x51a3408f929d38f5bcb6da2110fff3d2,
   0xcd0c13ec5f974417c4a77e3d645d1973, 0x60814fdc222a908846eeb814de5e0bdb,
   0xe0323a0a4906245cc2d3ac629195e479, 0xe7c8376d8dd54ea96c56f4ea657aae08,
   0xba78252e1ca6b4c6e8dd741f4bbd8b8a, 0x703eb5664803f60e613557b986c11d9e,
   0xe1f8981169d98e949b1e87e9ce5528df, 0x8ca1890dbfe6426841992d0fb054bb16]

def invSboxRows : List Nat :=
  [0x52096ad53036a538bf40a39e81f3d7fb, 0x7ce339829b2fff87348e4344c4dee9cb,
   0x547b9432a6c2233dee4c950b42fac34e, 0x082ea16628d924b2765ba2496d8bd125,
   0x72f8f66486689816d4a45ccc5d65b692, 0x6c704850fdedb9da5e154657a78d9d84,
   0x90d8ab008cbcd30af7e45805b8b34506, 0xd02c1e8fca3f0f02c1afbd0301138a6b,
   0x3a9111414f67dcea97f2cfcef0b4e673, 0x96ac7422e7ad3585e2f937e81c75df6e,
   0x47f11a711d29c5896fb7620eaa18be1b, 0xfc563e4bc6d279209adbc0fe78cd5af4,
   0x1fdda8338807c731b11210592780ec5f, 0x60517fa919b54a0d2de57a9f93c99cef,
   0xa0e03b4dae2af5b0c8ebbb3c83539961, 0x172b047eba77d626e169146355210c7d]

/-- The byte in row `b / 16` and column `b % 16`. -/
def substitute (rows : List Nat) (b : UInt8) : UInt8 :=
  UInt8.ofNat (rows.getD (b.toNat / 16) 0 >>> (8 * (15 - b.toNat % 16)))

def sbox (b : UInt8) : UInt8 := substitute sboxRows b
def invSbox (b : UInt8) : UInt8 := substitute invSboxRows b

theorem invSbox_sbox_table : ∀ i : Fin 256, invSbox (sbox (UInt8.ofNat i)) = UInt8.ofNat i := by
  decide +kernel

theorem invSbox_sbox (b : UInt8) : invSbox (sbox b) = b := by
  have h := invSbox_sbox_table ⟨b.toNat, b.toNat_lt⟩
  rwa [UInt8.ofNat_toNat] at h

/-! ## Round layers -/

/-- Byte `r` of column `c`. -/
abbrev State := Fin 4 → Fin 4 → UInt8

def subBytes (s : State) : State := fun r c => sbox (s r c)
def invSubBytes (s : State) : State := fun r c => invSbox (s r c)
def shiftRows (s : State) : State := fun r c => s r (c + r)
def invShiftRows (s : State) : State := fun r c => s r (c - r)
def addRoundKey (k s : State) : State := fun r c => s r c ^^^ k r c

def times9 (b : UInt8) : UInt8 := xtime (xtime (xtime b)) ^^^ b
def times11 (b : UInt8) : UInt8 := xtime (xtime (xtime b)) ^^^ xtime b ^^^ b
def times13 (b : UInt8) : UInt8 := xtime (xtime (xtime b)) ^^^ xtime (xtime b) ^^^ b
def times14 (b : UInt8) : UInt8 := xtime (xtime (xtime b)) ^^^ xtime (xtime b) ^^^ xtime b

def mixColumns (s : State) : State := fun r c =>
  xtime (s r c) ^^^ (xtime (s (r + 1) c) ^^^ s (r + 1) c) ^^^ s (r + 2) c ^^^ s (r + 3) c

def invMixColumns (s : State) : State := fun r c =>
  times14 (s r c) ^^^ times11 (s (r + 1) c) ^^^ times13 (s (r + 2) c) ^^^ times9 (s (r + 3) c)

theorem invSubBytes_subBytes (s : State) : invSubBytes (subBytes s) = s := by
  funext r c
  exact invSbox_sbox (s r c)

theorem invShiftRows_shiftRows (s : State) : invShiftRows (shiftRows s) = s := by
  funext r c
  have hc : c - r + r = c := by
    revert r c
    decide
  exact congrArg (s r) hc

theorem addRoundKey_addRoundKey (k s : State) : addRoundKey k (addRoundKey k s) = s := by
  funext r c
  change s r c ^^^ k r c ^^^ k r c = s r c
  rw [UInt8.xor_assoc, UInt8.xor_self, UInt8.xor_zero]

theorem shiftRight_seven (b : UInt8) : b >>> 7 = 0 ∨ b >>> 7 = 1 := by
  have hb : b.toNat < 256 := b.toNat_lt
  have hn : (b >>> 7).toNat = b.toNat / 128 := by
    rw [UInt8.toNat_shiftRight]
    exact Nat.shiftRight_eq_div_pow _ _
  rcases (show b.toNat / 128 = 0 ∨ b.toNat / 128 = 1 by omega) with h | h
  · exact .inl (UInt8.toNat_inj.mp (hn.trans h))
  · exact .inr (UInt8.toNat_inj.mp (hn.trans h))

/-- Doubling is linear over exclusive or. -/
theorem xtime_xor (a b : UInt8) : xtime (a ^^^ b) = xtime a ^^^ xtime b := by
  have hfold : ((a ^^^ b) >>> 7) * (0x1b : UInt8) =
      ((a >>> 7) * (0x1b : UInt8)) ^^^ ((b >>> 7) * (0x1b : UInt8)) := by
    rw [UInt8.shiftRight_xor]
    rcases shiftRight_seven a with ha | ha <;> rcases shiftRight_seven b with hb | hb <;> rw [ha, hb] <;> rfl
  rw [xtime, xtime, xtime, hfold, UInt8.shiftLeft_xor]
  ac_rfl

theorem times9_xor (a b : UInt8) : times9 (a ^^^ b) = times9 a ^^^ times9 b := by
  simp only [times9, xtime_xor]
  ac_rfl

theorem times11_xor (a b : UInt8) : times11 (a ^^^ b) = times11 a ^^^ times11 b := by
  simp only [times11, xtime_xor]
  ac_rfl

theorem times13_xor (a b : UInt8) : times13 (a ^^^ b) = times13 a ^^^ times13 b := by
  simp only [times13, xtime_xor]
  ac_rfl

theorem times14_xor (a b : UInt8) : times14 (a ^^^ b) = times14 a ^^^ times14 b := by
  simp only [times14, xtime_xor]
  ac_rfl

/-- The first row of the inverse matrix against the four columns of the matrix. -/
theorem inverse_row_table : ∀ i : Fin 256, let a := UInt8.ofNat i
    times14 (xtime a) ^^^ times11 a ^^^ times13 a ^^^ times9 (xtime a ^^^ a) = a ∧
    times14 (xtime a ^^^ a) ^^^ times11 (xtime a) ^^^ times13 a ^^^ times9 a = 0 ∧
    times14 a ^^^ times11 (xtime a ^^^ a) ^^^ times13 (xtime a) ^^^ times9 a = 0 ∧
    times14 a ^^^ times11 a ^^^ times13 (xtime a ^^^ a) ^^^ times9 (xtime a) = 0 := by
  decide +kernel

/-- One row of the inverse matrix against the four mixed bytes of a column. -/
theorem mix_row (a b c d : UInt8) :
    times14 (xtime a ^^^ (xtime b ^^^ b) ^^^ c ^^^ d) ^^^ times11 (xtime b ^^^ (xtime c ^^^ c) ^^^ d ^^^ a) ^^^
      times13 (xtime c ^^^ (xtime d ^^^ d) ^^^ a ^^^ b) ^^^ times9 (xtime d ^^^ (xtime a ^^^ a) ^^^ b ^^^ c) = a := by
  have row (x : UInt8) := inverse_row_table ⟨x.toNat, x.toNat_lt⟩
  simp only [UInt8.ofNat_toNat] at row
  calc _ = (times14 (xtime a) ^^^ times11 a ^^^ times13 a ^^^ times9 (xtime a ^^^ a)) ^^^
        (times14 (xtime b ^^^ b) ^^^ times11 (xtime b) ^^^ times13 b ^^^ times9 b) ^^^
        (times14 c ^^^ times11 (xtime c ^^^ c) ^^^ times13 (xtime c) ^^^ times9 c) ^^^
        (times14 d ^^^ times11 d ^^^ times13 (xtime d ^^^ d) ^^^ times9 (xtime d)) := by
        rw [times14_xor, times14_xor, times14_xor (xtime a), times11_xor, times11_xor, times11_xor (xtime b),
          times13_xor, times13_xor, times13_xor (xtime c), times9_xor, times9_xor, times9_xor (xtime d)]
        ac_rfl
    _ = a := by
        rw [(row a).1, (row b).2.1, (row c).2.2.1, (row d).2.2.2, UInt8.xor_zero, UInt8.xor_zero, UInt8.xor_zero]

theorem invMixColumns_mixColumns (s : State) : invMixColumns (mixColumns s) = s := by
  funext r c
  have h : r + 1 + 1 = r + 2 ∧ r + 1 + 2 = r + 3 ∧ r + 1 + 3 = r ∧ r + 2 + 1 = r + 3 ∧ r + 2 + 2 = r ∧
      r + 2 + 3 = r + 1 ∧ r + 3 + 1 = r ∧ r + 3 + 2 = r + 1 ∧ r + 3 + 3 = r + 2 := by
    revert r
    decide
  obtain ⟨h₁, h₂, h₃, h₄, h₅, h₆, h₇, h₈, h₉⟩ := h
  have hm := mix_row (s r c) (s (r + 1) c) (s (r + 2) c) (s (r + 3) c)
  simpa only [invMixColumns, mixColumns, h₁, h₂, h₃, h₄, h₅, h₆, h₇, h₈, h₉] using hm

/-! ## Blocks as states -/

def toState (b : Fixed 16) : State := fun r c => b.get ⟨4 * c + r, by omega⟩

def ofState (s : State) : Fixed 16 :=
  List.Vector.ofFn fun i => s ⟨i % 4, Nat.mod_lt _ (by decide)⟩ ⟨i / 4, by omega⟩

theorem toState_ofState (s : State) : toState (ofState s) = s := by
  funext r c
  rw [toState, ofState, List.Vector.get_ofFn]
  have hr : (4 * c.val + r.val) % 4 = r.val := by omega
  have hc : (4 * c.val + r.val) / 4 = c.val := by omega
  simp only [hr, hc]

theorem ofState_toState (b : Fixed 16) : ofState (toState b) = b := by
  rw [ofState]
  conv => rhs; rw [← List.Vector.ofFn_get b]
  congr 1
  funext i
  rw [toState]
  congr 1
  apply Fin.ext
  change 4 * (i.val / 4) + i.val % 4 = i.val
  omega

/-! ## The cipher -/

def round (k : State) (b : Fixed 16) : Fixed 16 :=
  ofState (addRoundKey k (mixColumns (shiftRows (subBytes (toState b)))))

def invRound (k : State) (b : Fixed 16) : Fixed 16 :=
  ofState (invSubBytes (invShiftRows (invMixColumns (addRoundKey k (toState b)))))

def finalRound (k : State) (b : Fixed 16) : Fixed 16 :=
  ofState (addRoundKey k (shiftRows (subBytes (toState b))))

def invFinalRound (k : State) (b : Fixed 16) : Fixed 16 :=
  ofState (invSubBytes (invShiftRows (addRoundKey k (toState b))))

def whiten (k : State) (b : Fixed 16) : Fixed 16 := ofState (addRoundKey k (toState b))

theorem invRound_round (k : State) (b : Fixed 16) : invRound k (round k b) = b := by
  rw [invRound, round, toState_ofState, addRoundKey_addRoundKey, invMixColumns_mixColumns, invShiftRows_shiftRows,
    invSubBytes_subBytes, ofState_toState]

theorem invFinalRound_finalRound (k : State) (b : Fixed 16) : invFinalRound k (finalRound k b) = b := by
  rw [invFinalRound, finalRound, toState_ofState, addRoundKey_addRoundKey, invShiftRows_shiftRows,
    invSubBytes_subBytes, ofState_toState]

theorem whiten_whiten (k : State) (b : Fixed 16) : whiten k (whiten k b) = b := by
  rw [whiten, whiten, toState_ofState, addRoundKey_addRoundKey, ofState_toState]

def rounds (ks : List State) (b : Fixed 16) : Fixed 16 := ks.foldl (fun b k => round k b) b
def invRounds (ks : List State) (b : Fixed 16) : Fixed 16 := ks.foldr (fun k b => invRound k b) b

theorem invRounds_rounds (ks : List State) (b : Fixed 16) : invRounds ks (rounds ks b) = b := by
  induction ks generalizing b with
  | nil => rfl
  | cons k ks ih =>
    change invRound k (invRounds ks (rounds ks (round k b))) = b
    rw [ih, invRound_round]

/-- Words `w[0..]` of the key schedule so far, each four bytes; append the next one. -/
def expandStep (w : List Bytes) : List Bytes :=
  let i := w.length
  let temp := w.getD (i - 1) []
  let temp :=
    if i % 8 = 0 then xorBytes ((temp.rotate 1).map sbox) [xtime^[i / 8 - 1] 1, 0, 0, 0]
    else if i % 8 = 4 then temp.map sbox
    else temp
  w ++ [xorBytes (w.getD (i - 8) []) temp]

/-- The 60 words of the schedule of a 256-bit key. -/
def expandKey (key : Fixed 32) : List Bytes :=
  expandStep^[52] ((List.range 8).map fun i => slice key.toList (4 * i) 4)

def roundKey (w : List Bytes) (j : Nat) : State := fun r c => (w.getD (4 * j + c) []).getD r 0

/-- The thirteen full rounds' keys. -/
def innerKeys (w : List Bytes) : List State := (List.range 13).map fun j => roundKey w (j + 1)

def encryptBlock (key : Fixed 32) (b : Fixed 16) : Fixed 16 :=
  let w := expandKey key
  finalRound (roundKey w 14) (rounds (innerKeys w) (whiten (roundKey w 0) b))

def decryptBlock (key : Fixed 32) (b : Fixed 16) : Fixed 16 :=
  let w := expandKey key
  whiten (roundKey w 0) (invRounds (innerKeys w) (invFinalRound (roundKey w 14) b))

theorem decryptBlock_encryptBlock (key : Fixed 32) (b : Fixed 16) : decryptBlock key (encryptBlock key b) = b := by
  rw [decryptBlock, encryptBlock, invFinalRound_finalRound, invRounds_rounds, whiten_whiten]

def aes256 : Cipher (Fixed 32) 16 where
  encrypt := encryptBlock
  decrypt := decryptBlock
  decrypt_encrypt := decryptBlock_encryptBlock

end Aes
