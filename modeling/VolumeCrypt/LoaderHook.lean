import VolumeCrypt.DataPath

/-!
# The loader's Block IO hook

`decrypt_after_read` and `encrypt_before_write` of `lib/loader/src/hook/mod.rs`. The
hook decides sector by sector with its own comparisons; wherever a request stays
inside the 64-bit LBA space it leaves the bytes that the driver's data path leaves.
-/
namespace LoaderHook

open ByteString VckTypes CipherTraits VolumeSweep DataPath
open XtsCipher (Aes256)

structure HookGeometry where
  offsetSector : UInt64
  encryptedOffset : EncryptedOffset

structure BlockIoHookEngine where
  geometry : HookGeometry
  cipherSupplier : VolumeCipherSupplier

/-- The relative number of sector `i` of a request at `lba`, when that sector is encrypted. The
addition wraps at 64 bits. -/
def HookGeometry.encryptedRel (g : HookGeometry) (lba : UInt64) (i : Nat) : Option UInt64 :=
  let abs := lba + UInt64.ofNat i
  if abs < g.offsetSector then none
  else
    let rel := abs - g.offsetSector
    if rel ≥ g.encryptedOffset.totalSectors then none
    else if g.encryptedOffset.isEncrypted rel then some rel
    else none

/-- The loop over `chunks_mut(sector_size)` that both directions share. -/
def hookLoop (g : HookGeometry) (f : UInt64 → Bytes → Bytes) (lba : UInt64) (sectorSize : Nat) (buf : Bytes) : Bytes :=
  forChunks sectorSize
    (fun i sector =>
      match g.encryptedRel lba i with
      | some rel => f rel sector
      | none => sector)
    0 buf

namespace BlockIoHookEngine

/-- `call` numbers the call of `get_cipher`. -/
def decryptAfterRead (h : BlockIoHookEngine) (call : Nat) (lba : UInt64) (sectorSize : Nat) (buf : Bytes) :
    VckResult Bytes :=
  if sectorSize = 0 then .ok buf
  else
    match h.cipherSupplier.getCipher call with
    | none => .ok buf
    | some cipher => .ok (hookLoop h.geometry cipher.decryptSector lba sectorSize buf)

def encryptBeforeWrite (h : BlockIoHookEngine) (call : Nat) (lba : UInt64) (sectorSize : Nat) (buf : Bytes) :
    VckResult Bytes :=
  if sectorSize = 0 then .ok buf
  else
    match h.cipherSupplier.getCipher call with
    | none => .ok buf
    | some cipher => .ok (hookLoop h.geometry cipher.encryptSector lba sectorSize buf)

end BlockIoHookEngine

/-- Without a wrap the hook's checks are comparisons of sector numbers. -/
theorem encryptedRel_eq (g : HookGeometry) {lba : UInt64} {i : Nat} (h : lba.toNat + i < 2 ^ 64) :
    g.encryptedRel lba i =
      if g.offsetSector.toNat ≤ lba.toNat + i ∧
          lba.toNat + i < g.offsetSector.toNat + g.encryptedOffset.totalSectors.toNat ∧
          lba.toNat + i < g.offsetSector.toNat + g.encryptedOffset.sector.toNat then
        some (UInt64.ofNat (lba.toNat + i - g.offsetSector.toNat))
      else none := by
  have hof : (UInt64.ofNat i).toNat = i := by
    rw [UInt64.toNat_ofNat']
    exact Nat.mod_eq_of_lt (by omega)
  have habs : (lba + UInt64.ofNat i).toNat = lba.toNat + i := by
    rw [UInt64.toNat_add, hof, Nat.mod_eq_of_lt h]
  unfold HookGeometry.encryptedRel
  simp only [UInt64.lt_iff_toNat_lt, habs, ge_iff_le, UInt64.le_iff_toNat_le, EncryptedOffset.isEncrypted]
  by_cases hlo : lba.toNat + i < g.offsetSector.toNat
  · rw [if_pos hlo, if_neg (by omega)]
  · have hsub : (lba + UInt64.ofNat i - g.offsetSector).toNat = lba.toNat + i - g.offsetSector.toNat := by
      rw [UInt64.toNat_sub_of_le _ _ (UInt64.le_iff_toNat_le.mpr (by omega)), habs]
    have hrel : lba + UInt64.ofNat i - g.offsetSector = UInt64.ofNat (lba.toNat + i - g.offsetSector.toNat) := by
      rw [← hsub, UInt64.ofNat_toNat]
    rw [if_neg hlo, hsub, hrel]
    by_cases htot : g.encryptedOffset.totalSectors.toNat ≤ lba.toNat + i - g.offsetSector.toNat
    · rw [if_pos htot, if_neg (by omega)]
    · rw [if_neg htot]
      by_cases hb : lba.toNat + i < g.offsetSector.toNat + g.encryptedOffset.sector.toNat
      · rw [if_pos (by simp only [decide_eq_true_eq]; omega), if_pos (by omega)]
      · rw [if_neg (by simp only [decide_eq_true_eq]; omega), if_neg (by omega)]

/-- A sector of the loop, whatever the hook does with it, keeps its length. -/
theorem length_hookStep {g : HookGeometry} {f : UInt64 → Bytes → Bytes} (hf : ∀ rel s, (f rel s).length = s.length)
    (lba : UInt64) (i : Nat) (c : Bytes) :
    (match g.encryptedRel lba i with
      | some rel => f rel c
      | none => c).length = c.length := by
  cases g.encryptedRel lba i with
  | none => rfl
  | some rel => exact hf rel c

theorem length_hookLoop {g : HookGeometry} {f : UInt64 → Bytes → Bytes} (hf : ∀ rel s, (f rel s).length = s.length)
    (lba : UInt64) (ss : Nat) (buf : Bytes) : (hookLoop g f lba ss buf).length = buf.length := by
  rw [hookLoop, length_forChunks (length_hookStep hf lba)]

/-- Sector `k` of the loop. -/
theorem slice_hookLoop {g : HookGeometry} {f : UInt64 → Bytes → Bytes} (hf : ∀ rel s, (f rel s).length = s.length)
    (lba : UInt64) {ss n k : Nat} (hs : 0 < ss) {buf : Bytes} (hl : buf.length = n * ss) (hk : k < n) :
    slice (hookLoop g f lba ss buf) (k * ss) ss =
      match g.encryptedRel lba k with
      | some rel => f rel (slice buf (k * ss) ss)
      | none => slice buf (k * ss) ss := by
  have hle : (k + 1) * ss ≤ buf.length := by
    rw [hl]
    exact Nat.mul_le_mul_right _ hk
  rw [hookLoop, slice_forChunks hs (length_hookStep hf lba) 0 k buf hle, Nat.zero_add]

section Agreement

variable {σ : Type} {v : AttachedVolume σ} {burst : Option VolumeCipher} {cipher : VolumeCipher} {g : HookGeometry}
  {ss n : Nat} {lba : UInt64} {buf : Bytes} {area : Bytes → Nat → UInt64 → Bytes} {sector : UInt64 → Bytes → Bytes}

/-- The hook's loop and the driver's fragment agree, sector by sector. -/
theorem hookLoop_eq_fragment (pipeline : VolumeCipher → UInt64 → UInt64 → Bytes → Nat → Bytes)
    (hp : pipeline cipher = transformPrefix area) (harea : AreaLaw ss area sector)
    (hlen : ∀ rel s, (sector rel s).length = s.length) (hs : 0 < ss) (hkey : Keyed v burst cipher)
    (hoff : v.offsetSector = g.offsetSector) (htot : v.dataSectors = g.encryptedOffset.totalSectors)
    (hcache : v.encryptedBoundary = g.encryptedOffset.sector)
    (hB : g.encryptedOffset.sector.toNat ≤ g.encryptedOffset.totalSectors.toNat)
    (hlo : g.offsetSector.toNat ≤ lba.toNat) (hl : buf.length = n * ss) (hend : lba.toNat + n ≤ 2 ^ 64) :
    hookLoop g sector lba ss buf = (cryptFragment pipeline v burst lba buf ss).1 := by
  obtain ⟨frag', burst', v', hfrag, hfl, -, -, hslice⟩ := cryptFragment_spec pipeline hp harea hs hkey lba hl
    (by rw [hoff]; exact hlo) (by rw [hcache, htot]; exact hB)
  rw [hfrag]
  apply eq_of_sectors hs _ hfl
  · intro k hk
    rw [hslice k hk, slice_hookLoop hlen lba hs hl hk, encryptedRel_eq g (by omega), hoff, hcache]
    by_cases hb : lba.toNat + k < g.offsetSector.toNat + g.encryptedOffset.sector.toNat
    · rw [if_pos hb, if_pos ⟨by omega, by omega, hb⟩]
      simp only
      rw [Nat.sub_add_comm hlo]
    · rw [if_neg hb, if_neg (by omega)]
  · rw [length_hookLoop hlen, hl]

end Agreement

/-- The hook of a geometry and key pair. -/
def hookOf (aes : Aes256) (key1 key2 : Fixed 32) (offset : UInt64) (boundary : EncryptedOffset) : BlockIoHookEngine :=
  ⟨⟨offset, boundary⟩, staticCipherSupplier aes key1 key2⟩

/-- The driver's volume of the same geometry and key pair, at the same boundary. -/
def volumeOf (aes : Aes256) (key1 key2 : Fixed 32) (offset : UInt64) (boundary : EncryptedOffset)
    (sectorSize : UInt32) : AttachedVolume Unit where
  sectorSize := sectorSize
  ioConfig := .encrypted (some (staticCipherSupplier aes key1 key2)) offset boundary
  encryption := .new offset boundary
  offsetStore := ()
  encryptedBoundary := boundary.sector
  cipherCalls := 0

theorem volumeOf_keyed (aes : Aes256) (key1 key2 : Fixed 32) (offset : UInt64) (boundary : EncryptedOffset)
    (sectorSize : UInt32) :
    Keyed (volumeOf aes key1 key2 offset boundary sectorSize) none (xtsVolumeCipher aes ⟨key1, key2⟩) :=
  ⟨⟨_, rfl, fun _ => rfl⟩, .inl rfl⟩

/-- Hook and driver leave the same bytes on every request of whole sectors that stays inside the
64-bit LBA space. -/
theorem hook_eq_driver (aes : Aes256) (key1 key2 : Fixed 32) (offset : UInt64) (boundary : EncryptedOffset)
    (hB : boundary.sector ≤ boundary.totalSectors) (sectorSize : UInt32) (hs : 0 < sectorSize.toNat) (lba : UInt64)
    (hlo : offset ≤ lba) (buf : Bytes) (n : Nat) (hl : buf.length = n * sectorSize.toNat)
    (hend : lba.toNat + n ≤ 2 ^ 64) (call : Nat) :
    (hookOf aes key1 key2 offset boundary).decryptAfterRead call lba sectorSize.toNat buf =
        .ok (cryptFragment decryptRead (volumeOf aes key1 key2 offset boundary sectorSize) none lba buf
          sectorSize.toNat).1 ∧
      (hookOf aes key1 key2 offset boundary).encryptBeforeWrite call lba sectorSize.toNat buf =
        .ok (cryptFragment encryptWrite (volumeOf aes key1 key2 offset boundary sectorSize) none lba buf
          sectorSize.toNat).1 := by
  have hc := xtsVolumeCipher_lawful hs aes ⟨key1, key2⟩
  have hkey := volumeOf_keyed aes key1 key2 offset boundary sectorSize
  rw [UInt64.le_iff_toNat_le] at hB hlo
  constructor
  · rw [BlockIoHookEngine.decryptAfterRead, if_neg (by omega)]
    exact congrArg Except.ok (hookLoop_eq_fragment decryptRead rfl hc.decryptArea
      (fun _ _ => XtsCipher.length_sectorInner _ _ _) hs hkey rfl rfl rfl hB hlo hl hend)
  · rw [BlockIoHookEngine.encryptBeforeWrite, if_neg (by omega)]
    exact congrArg Except.ok (hookLoop_eq_fragment encryptWrite rfl hc.encryptArea
      (fun _ _ => XtsCipher.length_sectorInner _ _ _) hs hkey rfl rfl rfl hB hlo hl hend)

/-- A request of three sectors across the boundary and the end of the data region. -/
theorem hook_eq_driver_straddling :
    (hookOf Aes.aes256 (List.Vector.replicate 32 1) (List.Vector.replicate 32 2) 8 ⟨1, 2⟩).decryptAfterRead 0 8 512
        (List.replicate (3 * 512) 5) =
      .ok (cryptFragment decryptRead (volumeOf Aes.aes256 (List.Vector.replicate 32 1) (List.Vector.replicate 32 2) 8
        ⟨1, 2⟩ 512) none 8 (List.replicate (3 * 512) 5) 512).1 :=
  (hook_eq_driver Aes.aes256 _ _ 8 ⟨1, 2⟩ (by decide) 512 (by decide) 8 (by decide) _ 3 List.length_replicate
    (by decide) 0).1

/-- A request that runs past the last LBA: the hook wraps around and decrypts sector 0, the driver
passes the bytes through. -/
theorem hook_ne_driver_at_wrap :
    (hookOf Aes.aes256 (List.Vector.replicate 32 1) (List.Vector.replicate 32 2) 0 ⟨1, 1⟩).decryptAfterRead 0
        (UInt64.ofNat (2 ^ 64 - 1)) 16 (List.replicate 32 0) ≠
      .ok (cryptFragment decryptRead (volumeOf Aes.aes256 (List.Vector.replicate 32 1) (List.Vector.replicate 32 2) 0
        ⟨1, 1⟩ 16) none (UInt64.ofNat (2 ^ 64 - 1)) (List.replicate 32 0) 16).1 := by
  have hbytes : hookLoop ⟨0, ⟨1, 1⟩⟩
      (XtsCipher.decryptSector Aes.aes256 ⟨List.Vector.replicate 32 1, List.Vector.replicate 32 2⟩)
      (UInt64.ofNat (2 ^ 64 - 1)) 16 (List.replicate 32 0) ≠ List.replicate 32 0 := by
    decide +kernel
  intro h
  exact hbytes (Except.ok.inj h)

end LoaderHook
