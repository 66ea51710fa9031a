import VolumeCrypt.ByteString

/-!
# Text and its UTF-8 bytes

A text is a list of Unicode scalar values, and its bytes are those of its characters. An
ASCII character is its own byte; every byte of any other character is above the ASCII
range, so a scanner that looks for ASCII bytes never stops inside a character.
-/
namespace Utf8Text

open ByteString

abbrev Text := List Char

/-- The bytes of a text. -/
def asBytes (t : Text) : Bytes := t.flatMap String.utf8EncodeChar

/-- The text with the given bytes. -/
def fromUtf8 (b : Bytes) : Option Text := (String.fromUTF8? b.toByteArray).map String.toList

@[simp] theorem asBytes_nil : asBytes [] = [] := rfl

@[simp] theorem asBytes_cons (c : Char) (t : Text) : asBytes (c :: t) = String.utf8EncodeChar c ++ asBytes t := rfl

@[simp] theorem asBytes_append (s t : Text) : asBytes (s ++ t) = asBytes s ++ asBytes t := List.flatMap_append

theorem fromUtf8_asBytes (t : Text) : fromUtf8 (asBytes t) = some t := by
  have hvalid : (asBytes t).toByteArray.IsValidUTF8 := .intro t rfl
  have hbytes : String.fromUTF8 (asBytes t).toByteArray hvalid = String.ofList t := String.toByteArray_inj.mp rfl
  rw [fromUtf8, String.fromUTF8?, dif_pos hvalid, Option.map_some, hbytes, String.toList_ofList]

/-! ## Characters -/

def IsAscii (c : Char) : Prop := c.toNat < 128

instance (c : Char) : Decidable (IsAscii c) := inferInstanceAs (Decidable (c.toNat < 128))

/-- The byte of an ASCII character. -/
def byte (c : Char) : UInt8 := UInt8.ofNat c.toNat

theorem toNat_byte {c : Char} (h : IsAscii c) : (byte c).toNat = c.toNat := by
  have hc : c.toNat < 128 := h
  rw [byte, UInt8.toNat_ofNat']
  omega

theorem byte_injective {c d : Char} (hc : IsAscii c) (hd : IsAscii d) (h : byte c = byte d) : c = d := by
  have hn : c.toNat = d.toNat := by rw [← toNat_byte hc, ← toNat_byte hd, h]
  rw [← Char.ofNat_toNat c, ← Char.ofNat_toNat d, hn]

theorem utf8EncodeChar_ascii {c : Char} (h : IsAscii c) : String.utf8EncodeChar c = [byte c] := by
  have hc : c.val.toNat ≤ 0x7f := Nat.le_of_lt_succ h
  rw [String.utf8EncodeChar]
  exact if_pos hc

/-- Two bytes or more, none of them ASCII. -/
theorem utf8EncodeChar_wide {c : Char} (h : ¬ IsAscii c) :
    2 ≤ (String.utf8EncodeChar c).length ∧ ∀ x ∈ String.utf8EncodeChar c, 128 ≤ x.toNat := by
  have hc : ¬ c.val.toNat ≤ 0x7f := fun hle => h (Nat.lt_succ_of_le hle)
  have hbyte {n : Nat} (h₁ : 128 ≤ n) (h₂ : n < 256) : 128 ≤ (UInt8.ofNat n).toNat := by
    rw [UInt8.toNat_ofNat']
    omega
  rw [String.utf8EncodeChar]
  simp only [hc, if_false]
  -- One case for each length of the encoding.
  split
  · simp only [List.length_cons, List.mem_cons, List.not_mem_nil, or_false, forall_eq_or_imp, forall_eq]
    exact ⟨by simp, hbyte (by omega) (by omega), hbyte (by omega) (by omega)⟩
  · split
    · simp only [List.length_cons, List.mem_cons, List.not_mem_nil, or_false, forall_eq_or_imp, forall_eq]
      exact ⟨by simp, hbyte (by omega) (by omega), hbyte (by omega) (by omega), hbyte (by omega) (by omega)⟩
    · simp only [List.length_cons, List.mem_cons, List.not_mem_nil, or_false, forall_eq_or_imp, forall_eq]
      exact ⟨by simp, hbyte (by omega) (by omega), hbyte (by omega) (by omega), hbyte (by omega) (by omega),
        hbyte (by omega) (by omega)⟩

/-- One character for each byte. -/
def latin1 (b : Bytes) : Text := b.map fun x => Char.ofNat x.toNat

theorem latin1_byte {c : Char} (h : IsAscii c) : latin1 [byte c] = [c] := by
  rw [latin1, List.map_singleton, toNat_byte h, Char.ofNat_toNat]

theorem asBytes_ascii {t : Text} (h : ∀ c ∈ t, IsAscii c) : asBytes t = t.map byte := by
  induction t with
  | nil => rfl
  | cons c t ih =>
    have hc := h c List.mem_cons_self
    have ht : ∀ x ∈ t, IsAscii x := fun x hx => h x (List.mem_cons_of_mem _ hx)
    rw [asBytes_cons, utf8EncodeChar_ascii hc, ih ht, List.map_cons, List.singleton_append]

/-! ## Positions -/

section Positions

variable {bytes xs rest : Bytes} {i : Nat} {x : UInt8}

theorem getElem?_of_drop (h : bytes.drop i = x :: rest) : bytes[i]? = some x := by
  have hi : (bytes.drop i)[0]? = some x := by rw [h, List.getElem?_cons_zero]
  rwa [List.getElem?_drop, Nat.add_zero] at hi

theorem drop_succ (h : bytes.drop i = x :: rest) : bytes.drop (i + 1) = rest := by
  rw [← List.drop_drop, h, List.drop_one, List.tail_cons]

theorem drop_append (h : bytes.drop i = xs ++ rest) : bytes.drop (i + xs.length) = rest := by
  rw [← List.drop_drop, h, List.drop_left]

theorem slice_of_drop (h : bytes.drop i = xs ++ rest) : slice bytes i xs.length = xs := by
  rw [slice, h, List.take_left]

end Positions

end Utf8Text
