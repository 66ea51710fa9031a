import VolumeCrypt.XtsCipher

/-!
# The cipher traits

`VolumeCipher` and `VolumeCipherSupplier` of `lib/common/src/types.rs`, and the XTS
cipher with its static supplier as their default implementation. The sector numbers
are relative to the data region. What the framework relies on is a sector
transformation that decryption undoes and that areas apply sector by sector.
-/
namespace CipherTraits

open ByteString BlockCipher XtsCipher

structure VolumeCipher where
  encryptSector : UInt64 → Bytes → Bytes
  decryptSector : UInt64 → Bytes → Bytes
  encryptArea : Bytes → Nat → UInt64 → Bytes
  decryptArea : Bytes → Nat → UInt64 → Bytes

/-- What `get_cipher` answers to its `n`-th call; `none` for a volume without a key. -/
structure VolumeCipherSupplier where
  getCipher : Nat → Option VolumeCipher

/-- `XtsVolumeCipher` behind the trait. -/
def xtsVolumeCipher (aes : Aes256) (c : XtsVolumeCipher) : VolumeCipher where
  encryptSector := XtsCipher.encryptSector aes c
  decryptSector := XtsCipher.decryptSector aes c
  encryptArea := XtsCipher.encryptArea aes c
  decryptArea := XtsCipher.decryptArea aes c

/-- The same cipher for every burst. -/
def staticCipherSupplier (aes : Aes256) (key1 key2 : Fixed 32) : VolumeCipherSupplier where
  getCipher := fun _ => some (xtsVolumeCipher aes ⟨key1, key2⟩)

/-! ## Areas -/

/-- On whole sectors of `ss` bytes, `area` applies `sector` to each of them under its own number. -/
structure AreaLaw (ss : Nat) (area : Bytes → Nat → UInt64 → Bytes) (sector : UInt64 → Bytes → Bytes) : Prop where
  length : ∀ buf first, (area buf ss first).length = buf.length
  slice : ∀ buf first k n, buf.length = n * ss → k < n →
    ByteString.slice (area buf ss first) (k * ss) ss =
      sector (first + UInt64.ofNat k) (ByteString.slice buf (k * ss) ss)

/-- A cipher the framework can run a volume of `ss`-byte sectors with. -/
structure LawfulCipher (ss : Nat) (c : VolumeCipher) : Prop where
  decrypt_encrypt : ∀ rel s, s.length = ss → c.decryptSector rel (c.encryptSector rel s) = s
  encryptArea : AreaLaw ss c.encryptArea c.encryptSector
  decryptArea : AreaLaw ss c.decryptArea c.decryptSector

theorem forChunks_areaLaw {ss : Nat} (hs : 0 < ss) {f : UInt64 → Bytes → Bytes}
    (hf : ∀ r c, (f r c).length = c.length) :
    AreaLaw ss (fun buf ss first => forChunks ss (fun si s => f (first + UInt64.ofNat si) s) 0 buf) f := by
  constructor
  · intro buf first
    exact length_forChunks (fun _ _ => hf _ _) 0 buf
  · intro buf first k n hl hk
    have hle : (k + 1) * ss ≤ buf.length := by
      rw [hl]
      exact Nat.mul_le_mul_right _ hk
    have hslice := slice_forChunks hs (fun i c => hf (first + UInt64.ofNat i) c) 0 k buf hle
    rw [Nat.zero_add] at hslice
    exact hslice

theorem xtsVolumeCipher_lawful {ss : Nat} (hs : 0 < ss) (aes : Aes256) (c : XtsVolumeCipher) :
    LawfulCipher ss (xtsVolumeCipher aes c) where
  decrypt_encrypt rel s _ := decryptSector_encryptSector aes c rel s
  encryptArea := forChunks_areaLaw hs fun _ _ => length_sectorInner _ _ _
  decryptArea := forChunks_areaLaw hs fun _ _ => length_sectorInner _ _ _

theorem AreaLaw.length_sector {ss : Nat} {area : Bytes → Nat → UInt64 → Bytes} {sector : UInt64 → Bytes → Bytes}
    (h : AreaLaw ss area sector) (rel : UInt64) {s : Bytes} (hs : s.length = ss) : (sector rel s).length = ss := by
  have hone := h.slice s rel 0 1 (by rw [hs, Nat.one_mul]) (by decide)
  rw [Nat.zero_mul, ← hs, slice_all] at hone
  have hlen := congrArg List.length hone
  rw [length_slice_of_le (by rw [hs, h.length, hs]; omega)] at hlen
  rw [← hs, hlen]
  simp

/-- A concatenation of sectors, read back sector by sector. -/
theorem slice_flatMap_range {ss n : Nat} {f : Nat → Bytes} (hf : ∀ k, k < n → (f k).length = ss) {k : Nat}
    (hk : k < n) :
    ((List.range n).flatMap f).length = n * ss ∧ slice ((List.range n).flatMap f) (k * ss) ss = f k := by
  have hlen (m : Nat) (hm : m ≤ n) : ((List.range m).flatMap f).length = m * ss := by
    induction m with
    | zero => simp
    | succ m ih =>
      rw [List.range_succ, List.flatMap_append, List.length_append, ih (by omega), List.flatMap_singleton, hf m hm,
        Nat.succ_mul]
  refine ⟨hlen n (Nat.le_refl n), ?_⟩
  obtain ⟨j, rfl⟩ : ∃ j, n = k + 1 + j := ⟨n - (k + 1), by omega⟩
  have hk₁ := hlen (k + 1) (by omega)
  have hsplit : slice ((List.range (k + 1)).flatMap f ++ (List.range j).flatMap fun i => f (k + 1 + i)) (k * ss) ss =
      slice ((List.range (k + 1)).flatMap f) (k * ss) ss :=
    slice_append_left _ (by rw [hk₁, Nat.succ_mul])
  have hright := slice_append_right ((List.range k).flatMap f) (f k) 0 ss
  rw [hlen k (by omega), Nat.add_zero] at hright
  rw [List.range_add, List.flatMap_append, List.flatMap_map, hsplit, List.range_succ, List.flatMap_append,
    List.flatMap_singleton, hright]
  have hall := slice_all (f k)
  rw [hf k hk] at hall
  exact hall

end CipherTraits
