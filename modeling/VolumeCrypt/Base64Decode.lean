import VolumeCrypt.Base64
import VolumeCrypt.VckTypes

/-!
# The decoder of the key in `vck.json`

`base64_decode` of `sample/common/src/config.rs` walks over the bytes of the text with a
32-bit accumulator that is shifted and never masked. White space is skipped and the first
`=` ends the input.
-/
namespace Base64Decode

open ByteString VckTypes Utf8Text Base64

/-- The nested function `val`. -/
def val (c : UInt8) : Option UInt8 :=
  if byte 'A' ≤ c ∧ c ≤ byte 'Z' then some (c - byte 'A')
  else if byte 'a' ≤ c ∧ c ≤ byte 'z' then some (c - byte 'a' + 26)
  else if byte '0' ≤ c ∧ c ≤ byte '9' then some (c - byte '0' + 52)
  else if c = byte '+' then some 62
  else if c = byte '/' then some 63
  else none

/-- The loop over the bytes of the input. -/
def decodeLoop (acc nbits : UInt32) (out : Bytes) : Bytes → VckResult Bytes
  | [] => .ok out
  | c :: cs =>
    if c = byte '=' then .ok out
    else if c = byte ' ' ∨ c = byte '\r' ∨ c = byte '\n' ∨ c = byte '\t' then decodeLoop acc nbits out cs
    else
      match val c with
      | none => .error (.invalidData "vck.json: invalid base64 in vmk")
      | some v =>
        let acc := acc <<< 6 ||| v.toUInt32
        let nbits := nbits + 6
        if nbits ≥ 8 then
          let nbits := nbits - 8
          decodeLoop acc nbits (out ++ [(acc >>> nbits).toUInt8]) cs
        else decodeLoop acc nbits out cs

def base64Decode (input : Text) : VckResult Bytes := decodeLoop 0 0 [] (asBytes input)

/-! ## Characters -/

def isSpace (c : Char) : Bool := c = ' ' || c = '\t' || c = '\r' || c = '\n'

/-- The value of a letter of the alphabet. -/
def letterValue (c : Char) : Option Nat := (List.range 64).find? fun n => symbol n = c

def InAlphabet (c : Char) : Prop := ∃ n, n < 64 ∧ symbol n = c

theorem letterValue_eq_none_iff {c : Char} : letterValue c = none ↔ ¬ InAlphabet c := by
  simp [letterValue, InAlphabet]

theorem letterValue_lt {c : Char} {n : Nat} (h : letterValue c = some n) : n < 64 :=
  List.mem_range.mp (List.mem_of_find?_eq_some h)

theorem symbol_of_letterValue {c : Char} {n : Nat} (h : letterValue c = some n) : symbol n = c := by
  simpa using List.find?_some h

theorem symbol_ascii {n : Nat} (hn : n < 64) : IsAscii (symbol n) := by
  have hall : ∀ n < 64, IsAscii (symbol n) := by decide +kernel
  exact hall n hn

theorem symbol_plain {n : Nat} (hn : n < 64) : symbol n ≠ '=' ∧ isSpace (symbol n) = false := by
  have hall : ∀ n < 64, symbol n ≠ '=' ∧ isSpace (symbol n) = false := by decide +kernel
  exact hall n hn

theorem val_symbol {n : Nat} (hn : n < 64) : val (byte (symbol n)) = some (UInt8.ofNat n) := by
  have hall : ∀ n < 64, val (byte (symbol n)) = some (UInt8.ofNat n) := by decide +kernel
  exact hall n hn

theorem symbol_of_val {c : Char} (hc : IsAscii c) {v : UInt8} (h : val (byte c) = some v) :
    v.toNat < 64 ∧ symbol v.toNat = c := by
  have hall : ∀ n < 128, ∀ v ∈ val (byte (Char.ofNat n)), v.toNat < 64 ∧ symbol v.toNat = Char.ofNat n := by
    decide +kernel
  have hv := hall c.toNat hc v
  rw [Char.ofNat_toNat] at hv
  exact hv h

theorem letterValue_symbol {n : Nat} (hn : n < 64) : letterValue (symbol n) = some n := by
  cases h : letterValue (symbol n) with
  | none => exact absurd ⟨n, hn, rfl⟩ (letterValue_eq_none_iff.mp h)
  | some m =>
    have hm := letterValue_lt h
    have hval := val_symbol hm
    rw [symbol_of_letterValue h, val_symbol hn, Option.some_inj, ← UInt8.toNat_inj, UInt8.toNat_ofNat',
      UInt8.toNat_ofNat'] at hval
    rw [Option.some_inj]
    omega

/-- On an ASCII byte, `val` is the value of the letter. -/
theorem val_byte {c : Char} (hc : IsAscii c) : val (byte c) = (letterValue c).map UInt8.ofNat := by
  cases h : letterValue c with
  | some n =>
    rw [← symbol_of_letterValue h, val_symbol (letterValue_lt h)]
    rfl
  | none =>
    cases hv : val (byte c) with
    | none => rfl
    | some v => exact absurd ⟨v.toNat, symbol_of_val hc hv⟩ (letterValue_eq_none_iff.mp h)

theorem val_high {x : UInt8} (hx : 128 ≤ x.toNat) : val x = none := by
  have hbyte {c : Char} (hc : IsAscii c) : ¬ x ≤ byte c := by
    have hc' : c.toNat < 128 := hc
    rw [UInt8.le_iff_toNat_le, toNat_byte hc]
    omega
  have hne {c : Char} (hc : IsAscii c) : x ≠ byte c := fun he => hbyte hc (he ▸ UInt8.le_refl _)
  rw [val, if_neg fun h => hbyte (by decide) h.2, if_neg fun h => hbyte (by decide) h.2,
    if_neg fun h => hbyte (by decide) h.2, if_neg (hne (by decide)), if_neg (hne (by decide))]

/-- The values of the letters in front of the first `=`, white space apart. -/
def letters (t : Text) : Option (List Nat) := ((t.takeWhile (· ≠ '=')).filter (!isSpace ·)).mapM letterValue

theorem letters_stop (t : Text) : letters ('=' :: t) = some [] := by
  simp [letters]

theorem letters_space {c : Char} (hc : isSpace c = true) (t : Text) : letters (c :: t) = letters t := by
  have hne : c ≠ '=' := by
    rintro rfl
    cases hc
  simp [letters, hne, hc]

theorem letters_letter {c : Char} (hne : c ≠ '=') (hc : isSpace c = false) (t : Text) :
    letters (c :: t) = (letterValue c).bind fun v => (letters t).map (v :: ·) := by
  simp only [letters, List.takeWhile_cons, hne, ne_eq, not_false_eq_true, decide_true, if_true, List.filter_cons, hc,
    Bool.not_false, List.mapM_cons, Option.bind_eq_bind]
  cases letterValue c with
  | none => rfl
  | some v => cases List.mapM letterValue _ <;> rfl

/-! ## The accumulator -/

theorem toNat_shift_or {acc : UInt32} {n : Nat} (hacc : acc.toNat = n % 2 ^ 32) {v : Nat} (hv : v < 64) :
    (acc <<< 6 ||| (UInt8.ofNat v).toUInt32).toNat = (n * 64 + v) % 2 ^ 32 := by
  have hv' : (UInt8.ofNat v).toUInt32.toNat = v := by
    rw [UInt8.toNat_toUInt32, UInt8.toNat_ofNat']
    omega
  have hshift : (acc <<< 6).toNat = 2 ^ 6 * (n % 2 ^ 26) := by
    rw [UInt32.toNat_shiftLeft, hacc]
    change (n % 2 ^ 32) <<< 6 % 2 ^ 32 = _
    rw [Nat.shiftLeft_eq]
    omega
  rw [UInt32.toNat_or, hshift, hv', ← Nat.two_pow_add_eq_or_of_lt hv]
  omega

/-- The byte that goes out has left-over bits below it and discarded bits above it. -/
theorem toUInt8_shiftRight {acc nbits : UInt32} {n k : Nat} (hacc : acc.toNat = n % 2 ^ 32) (hk : nbits.toNat = k)
    (hlt : k < 8) : (acc >>> nbits).toUInt8 = UInt8.ofNat (n / 2 ^ k) := by
  apply UInt8.toNat_inj.mp
  rw [UInt32.toNat_toUInt8, UInt32.toNat_shiftRight, hacc, hk, Nat.shiftRight_eq_div_pow, UInt8.toNat_ofNat',
    Nat.mod_eq_of_lt (show k < 32 by omega)]
  have hpow : 2 ^ 32 = 2 ^ k * 2 ^ (32 - k) := by
    rw [← Nat.pow_add]
    congr 1
    omega
  rw [hpow, Nat.mod_mul_right_div_self]
  exact Nat.mod_mod_of_dvd _ (Nat.pow_dvd_pow 2 (by omega))

/-- The counter of bits in hand: six more, or a byte less again. -/
theorem toNat_bits {nbits : UInt32} {k : Nat} (hk : nbits.toNat = k) (hlt : k < 8) :
    (nbits + 6).toNat = k + 6 ∧ (8 ≤ k + 6 → (nbits + 6 - 8).toNat = k + 6 - 8) := by
  have hadd : (nbits + 6).toNat = k + 6 := by
    rw [UInt32.toNat_add, hk]
    change (k + 6) % 2 ^ 32 = k + 6
    omega
  have height : (8 : UInt32).toNat = 8 := rfl
  refine ⟨hadd, ?_⟩
  intro hout
  have hle : 8 ≤ nbits + 6 := UInt32.le_iff_toNat_le.mpr (by rw [hadd, height]; exact hout)
  rw [UInt32.toNat_sub_of_le _ _ hle, hadd, height]

/-- One byte that is neither `=` nor white space. -/
theorem decodeLoop_letter {acc nbits : UInt32} (out : Bytes) {c : UInt8} (cs : Bytes) (hstop : c ≠ byte '=')
    (hspace : ¬ (c = byte ' ' ∨ c = byte '\r' ∨ c = byte '\n' ∨ c = byte '\t')) :
    decodeLoop acc nbits out (c :: cs) =
      match val c with
      | none => .error (.invalidData "vck.json: invalid base64 in vmk")
      | some v =>
        if nbits + 6 ≥ 8 then
          decodeLoop (acc <<< 6 ||| v.toUInt32) (nbits + 6 - 8)
            (out ++ [((acc <<< 6 ||| v.toUInt32) >>> (nbits + 6 - 8)).toUInt8]) cs
        else decodeLoop (acc <<< 6 ||| v.toUInt32) (nbits + 6) out cs := by
  rw [decodeLoop, if_neg hstop, if_neg hspace]

theorem decodeLoop_space {acc nbits : UInt32} (out : Bytes) {c : Char} (cs : Bytes) (hc : isSpace c = true) :
    decodeLoop acc nbits out (String.utf8EncodeChar c ++ cs) = decodeLoop acc nbits out cs := by
  simp only [isSpace, Bool.or_eq_true, decide_eq_true_eq] at hc
  rcases hc with ((rfl | rfl) | rfl) | rfl <;>
    · rw [utf8EncodeChar_ascii (by decide)]
      exact (if_neg (by decide)).trans (if_pos (by decide))

/-- An ASCII character that is neither `=` nor white space is looked up. -/
theorem decodeLoop_ascii {acc nbits : UInt32} (out : Bytes) {c : Char} (cs : Bytes) (hascii : IsAscii c)
    (hstop : c ≠ '=') (hspace : isSpace c = false) :
    decodeLoop acc nbits out (String.utf8EncodeChar c ++ cs) =
      match (letterValue c).map UInt8.ofNat with
      | none => .error (.invalidData "vck.json: invalid base64 in vmk")
      | some v =>
        if nbits + 6 ≥ 8 then
          decodeLoop (acc <<< 6 ||| v.toUInt32) (nbits + 6 - 8)
            (out ++ [((acc <<< 6 ||| v.toUInt32) >>> (nbits + 6 - 8)).toUInt8]) cs
        else decodeLoop (acc <<< 6 ||| v.toUInt32) (nbits + 6) out cs := by
  have hbyte {d : Char} (hd : IsAscii d) (hcd : c ≠ d) : byte c ≠ byte d := fun h => hcd (byte_injective hascii hd h)
  simp only [isSpace, Bool.or_eq_false_iff, decide_eq_false_iff_not] at hspace
  obtain ⟨⟨⟨h₁, h₂⟩, h₃⟩, h₄⟩ := hspace
  rw [utf8EncodeChar_ascii hascii, List.singleton_append, decodeLoop_letter out _ (hbyte (by decide) hstop),
    val_byte hascii]
  rintro (h | h | h | h)
  · exact hbyte (by decide) h₁ h
  · exact hbyte (by decide) h₃ h
  · exact hbyte (by decide) h₄ h
  · exact hbyte (by decide) h₂ h

/-- A character outside ASCII is refused at its first byte. -/
theorem decodeLoop_wide {acc nbits : UInt32} (out : Bytes) {c : Char} (cs : Bytes) (hc : ¬ IsAscii c) :
    decodeLoop acc nbits out (String.utf8EncodeChar c ++ cs) =
      .error (.invalidData "vck.json: invalid base64 in vmk") := by
  obtain ⟨hlen, hhigh⟩ := utf8EncodeChar_wide hc
  cases henc : String.utf8EncodeChar c with
  | nil =>
    rw [henc] at hlen
    simp at hlen
  | cons x xs =>
    have hx : 128 ≤ x.toNat := hhigh x (by rw [henc]; exact List.mem_cons_self)
    have hne {d : Char} (hd : IsAscii d) : x ≠ byte d := by
      have hd' : d.toNat < 128 := hd
      rintro rfl
      rw [toNat_byte hd] at hx
      omega
    rw [List.cons_append, decodeLoop_letter out _ (hne (by decide)), val_high hx]
    rintro (h | h | h | h) <;> exact hne (by decide) h

/-- The decoder regroups the letters, with all the bits that its accumulator loses. -/
theorem decodeLoop_eq {acc nbits : UInt32} {n k : Nat} (hacc : acc.toNat = n % 2 ^ 32) (hk : nbits.toNat = k)
    (hlt : k < 8) (out : Bytes) (t : Text) :
    decodeLoop acc nbits out (asBytes t) =
      match letters t with
      | none => .error (.invalidData "vck.json: invalid base64 in vmk")
      | some vs => .ok (out ++ regroup n k vs) := by
  induction t generalizing acc nbits n k out with
  | nil => simp [letters, decodeLoop, regroup]
  | cons c t ih =>
    rw [asBytes_cons]
    by_cases hstop : c = '='
    · subst hstop
      rw [letters_stop, utf8EncodeChar_ascii (by decide)]
      simp [decodeLoop, regroup]
    by_cases hspace : isSpace c = true
    · rw [letters_space hspace, decodeLoop_space out _ hspace, ih hacc hk hlt]
    rw [Bool.not_eq_true] at hspace
    rw [letters_letter hstop hspace]
    by_cases hascii : IsAscii c
    · rw [decodeLoop_ascii out _ hascii hstop hspace]
      cases hv : letterValue c with
      | none => rfl
      | some v =>
        have hv' := letterValue_lt hv
        have hacc' := toNat_shift_or hacc hv'
        obtain ⟨hadd, hsub⟩ := toNat_bits hk hlt
        have height : (8 : UInt32).toNat = 8 := rfl
        simp only [Option.map_some, Option.bind_some, ge_iff_le, UInt32.le_iff_toNat_le, hadd, height]
        by_cases hout : 8 ≤ k + 6
        · rw [if_pos hout, toUInt8_shiftRight hacc' (hsub hout) (by omega), ih hacc' (hsub hout) (by omega)]
          cases letters t with
          | none => rfl
          | some vs => simp only [Option.map_some, regroup, ge_iff_le, hout, if_true, List.append_assoc,
              List.singleton_append]
        · rw [if_neg hout, ih hacc' hadd (by omega)]
          cases letters t with
          | none => rfl
          | some vs => simp only [Option.map_some, regroup, ge_iff_le, hout, if_false]
    · have hnone : letterValue c = none := by
        rw [letterValue_eq_none_iff]
        rintro ⟨n, hn, rfl⟩
        exact hascii (symbol_ascii hn)
      rw [hnone, decodeLoop_wide out _ hascii]
      rfl

theorem base64Decode_eq (t : Text) :
    base64Decode t =
      match letters t with
      | none => .error (.invalidData "vck.json: invalid base64 in vmk")
      | some vs => .ok (regroup 0 0 vs) :=
  decodeLoop_eq rfl rfl (by decide) [] t

/-! ## Encoded texts -/

theorem mapM_letterValue {vs : List Nat} (h : ∀ v ∈ vs, v < 64) : (vs.map symbol).mapM letterValue = some vs := by
  induction vs with
  | nil => rfl
  | cons v vs ih =>
    have hv := h v List.mem_cons_self
    have hvs : ∀ x ∈ vs, x < 64 := fun x hx => h x (List.mem_cons_of_mem _ hx)
    simp [letterValue_symbol hv, ih hvs]

/-- The text spells the letters of an encoding, with white space anywhere, up to its end or the first `=`. -/
theorem letters_spelled {b : Bytes} {w pad : Text} (hw : w.filter (!isSpace ·) = unpadded b)
    (hpad : pad = [] ∨ pad.head? = some '=') : letters (w ++ pad) = some (sextets b) := by
  have hne : ∀ c ∈ w, (decide (c ≠ '=')) = true := by
    intro c hc
    rw [decide_eq_true_eq]
    by_cases hs : isSpace c = true
    · rintro rfl
      cases hs
    · have hmem : c ∈ unpadded b := by
        rw [← hw, List.mem_filter]
        exact ⟨hc, by simpa using hs⟩
      obtain ⟨v, hv, rfl⟩ := List.mem_map.mp hmem
      exact (symbol_plain (sextets_lt v hv)).1
  have hstop : pad.takeWhile (· ≠ '=') = [] := by
    rcases hpad with rfl | hhead
    · rfl
    · cases pad with
      | nil => rfl
      | cons c pad =>
        obtain rfl : c = '=' := Option.some_inj.mp hhead
        rfl
  rw [letters, List.takeWhile_append_of_pos hne, hstop, List.append_nil, hw, unpadded, mapM_letterValue sextets_lt]

theorem base64Decode_spelled {b : Bytes} {w pad : Text} (hw : w.filter (!isSpace ·) = unpadded b)
    (hpad : pad = [] ∨ pad.head? = some '=') : base64Decode (w ++ pad) = .ok b := by
  rw [base64Decode_eq, letters_spelled hw hpad]
  exact congrArg Except.ok (regroup_sextets 0 b)

theorem padding_head (b : Bytes) : padding b = [] ∨ (padding b).head? = some '=' := by
  cases hn : (3 - b.length % 3) % 3 with
  | zero => exact .inl (by rw [padding, hn, List.replicate_zero])
  | succ n => exact .inr (by rw [padding, hn, List.replicate_succ, List.head?_cons])

theorem filter_unpadded (b : Bytes) : (unpadded b).filter (!isSpace ·) = unpadded b := by
  rw [List.filter_eq_self]
  intro c hc
  obtain ⟨v, hv, rfl⟩ := List.mem_map.mp hc
  rw [(symbol_plain (sextets_lt v hv)).2, Bool.not_false]

theorem base64Decode_encode (b : Bytes) : base64Decode (encode b) = .ok b :=
  base64Decode_spelled (filter_unpadded b) (padding_head b)

theorem mapM_eq_none_iff {α β : Type} {f : α → Option β} {l : List α} : l.mapM f = none ↔ ∃ x ∈ l, f x = none := by
  induction l with
  | nil => simp
  | cons x l ih =>
    rw [List.mapM_cons, Option.bind_eq_bind]
    cases hx : f x with
    | none => simp [hx]
    | some y =>
      cases hl : List.mapM f l with
      | none => simpa [hx, hl] using ih
      | some ys => simpa [hx, hl] using ih

/-- Encoded bytes are decoded, padded or not and with white space anywhere in front of the padding; no output byte
depends on a bit that has left the accumulator; and an error means a character that is no letter and no space. -/
theorem base64Decode_inverts_encoder :
    (∀ (b : Bytes) (w pad : Text), w.filter (!isSpace ·) = unpadded b → pad = [] ∨ pad = padding b →
        base64Decode (w ++ pad) = .ok b) ∧
      (∀ (t : Text) (vs : List Nat), letters t = some vs → base64Decode t = .ok (regroup 0 0 vs)) ∧
        ∀ t : Text, (∃ e, base64Decode t = .error e) ↔
          ∃ c ∈ t.takeWhile (· ≠ '='), ¬ InAlphabet c ∧ isSpace c = false := by
  refine ⟨?_, ?_, ?_⟩
  · intro b w pad hw hpad
    have hhead : pad = [] ∨ pad.head? = some '=' := by
      rcases hpad with rfl | rfl
      · exact .inl rfl
      · exact padding_head b
    exact base64Decode_spelled hw hhead
  · intro t vs ht
    rw [base64Decode_eq, ht]
  · intro t
    have hnone : letters t = none ↔ ∃ c ∈ t.takeWhile (· ≠ '='), ¬ InAlphabet c ∧ isSpace c = false := by
      rw [letters, mapM_eq_none_iff]
      simp only [List.mem_filter, letterValue_eq_none_iff, Bool.not_eq_true']
      constructor
      · rintro ⟨c, ⟨hc, hs⟩, ha⟩
        exact ⟨c, hc, ha, hs⟩
      · rintro ⟨c, hc, ha, hs⟩
        exact ⟨c, ⟨hc, hs⟩, ha⟩
    rw [← hnone, base64Decode_eq]
    cases letters t with
    | none => simp
    | some vs => simp

/-- Four bytes with a space between their groups, padded. -/
theorem spaced_bytes_decoded : base64Decode ("AAEC Aw".toList ++ "==".toList) = .ok [0, 1, 2, 3] :=
  base64Decode_inverts_encoder.1 [0, 1, 2, 3] "AAEC Aw".toList "==".toList (by decide) (.inr (by decide))

end Base64Decode
