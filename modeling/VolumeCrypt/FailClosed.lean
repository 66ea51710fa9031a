import VolumeCrypt.LoaderHook

/-!
# Requests without a cipher

A volume may have no cipher supplier, and a supplier may have no cipher. The driver's
data path and the loader's hooks treat both as nothing to do: the bytes pass as they are
and the request succeeds. Below the boundary this mixes plaintext into the encrypted
span, and hands out ciphertext as data.
-/
namespace FailClosed

open ByteString ByteMemory VckTypes SectorIo CipherTraits VolumeSweep DataPath LoaderHook

/-! ## The hooked protocol -/

inductive EfiStatus where
  | success
  | deviceError
  | other (code : Nat)
  deriving DecidableEq, Repr

/-- The original `ReadBlocks` and `WriteBlocks` of the firmware. A null buffer is `none`. -/
structure Firmware where
  readBlocks : Device → UInt64 → Nat → Option Bytes → EfiStatus × Option Bytes
  writeBlocks : Device → UInt64 → Nat → Option Bytes → EfiStatus × Device

/-- A call for whole sectors that succeeds has transferred them. -/
structure Firmware.Lawful (F : Firmware) : Prop where
  read : ∀ {d lba n buffer out}, 0 < d.ss → buffer.length = n * d.ss →
    F.readBlocks d lba (n * d.ss) (some buffer) = (.success, out) →
      lba.toNat + n ≤ d.sectors ∧ out = some (d.area lba.toNat n)
  write : ∀ {d d' lba n buffer}, 0 < d.ss → buffer.length = n * d.ss →
    F.writeBlocks d lba (n * d.ss) (some buffer) = (.success, d') →
      lba.toNat + n ≤ d.sectors ∧ ∀ k, k < n → d'.sector (lba.toNat + k) = slice buffer (k * d.ss) d.ss

/-- An entry of the hook table; its engine pointer may be null. -/
structure HookEntry where
  engine : Option BlockIoHookEngine

/-- `media` is the block size behind the media pointer, `call` numbers the call of `get_cipher`. -/
def hookedReadBlocks (F : Firmware) (entry : Option HookEntry) (media : Option UInt32) (call : Nat) (lba : UInt64)
    (bufferSize : Nat) (buffer : Option Bytes) (d : Device) : EfiStatus × Option Bytes :=
  match entry with
  | none => (.deviceError, buffer)
  | some entry =>
    let (status, buffer) := F.readBlocks d lba bufferSize buffer
    if status ≠ .success then (status, buffer)
    else
      match media, buffer, entry.engine with
      | some blockSize, some buf, some engine =>
        if bufferSize = 0 ∨ blockSize = 0 then (status, some buf)
        else
          match engine.decryptAfterRead call lba blockSize.toNat (buf.take bufferSize) with
          | .error _ => (.deviceError, some buf)
          | .ok out => (status, some (out ++ buf.drop bufferSize))
      | _, buffer, _ => (status, buffer)

def hookedWriteBlocks (F : Firmware) (entry : Option HookEntry) (media : Option UInt32) (call : Nat) (lba : UInt64)
    (bufferSize : Nat) (buffer : Option Bytes) (d : Device) : EfiStatus × Device :=
  match entry with
  | none => (.deviceError, d)
  | some entry =>
    match media, buffer, entry.engine with
    | some blockSize, some buf, some engine =>
      if bufferSize = 0 ∨ blockSize = 0 then F.writeBlocks d lba bufferSize buffer
      else
        match engine.encryptBeforeWrite call lba blockSize.toNat (buf.take bufferSize) with
        | .error _ => (.deviceError, d)
        | .ok encrypted => F.writeBlocks d lba encrypted.length (some encrypted)
    | _, _, _ => F.writeBlocks d lba bufferSize buffer

/-! ## Failing closed -/

/-- A request of `n` whole sectors from `lba` on that starts below the boundary, in the data region. -/
structure Aimed (offset : UInt64) (o : EncryptedOffset) (lba n : Nat) : Prop where
  count : 0 < n
  start : offset.toNat ≤ lba
  below : lba < offset.toNat + o.sector.toNat
  inData : lba < offset.toNat + o.totalSectors.toNat

/-- Sector `k` of the request is an encrypted data sector. -/
def Encrypted (offset : UInt64) (o : EncryptedOffset) (lba k : Nat) : Prop :=
  lba + k < offset.toNat + o.sector.toNat ∧ lba + k < offset.toNat + o.totalSectors.toNat

/-- Sector `k` of the request, by its number in the data region. -/
def relSector (offset : UInt64) (lba k : Nat) : UInt64 := UInt64.ofNat (lba - offset.toNat + k)

/-- A cipher whose sector calls work in place, as the trait's slices make them. -/
structure InPlaceCipher (c : VolumeCipher) : Prop where
  length_encryptSector : ∀ rel s, (c.encryptSector rel s).length = s.length
  length_decryptSector : ∀ rel s, (c.decryptSector rel s).length = s.length

section Driver

variable {σ : Type}

/-- The boundary that the data path works with. -/
def pathOffset (v : AttachedVolume σ) : EncryptedOffset := ⟨v.encryptedBoundary, v.dataSectors⟩

/-- The burst has a cipher, or there is a supplier and its next answer is one. -/
def CipherAvailable (v : AttachedVolume σ) (burst : Option VolumeCipher) : Prop :=
  burst ≠ none ∨ ∃ s, v.cipherSupplier = some s ∧ s.getCipher v.cipherCalls ≠ none

/-- The request ends before it reaches the disk, or the disk refuses it. -/
def Refused (irp : Irp) (d : Device) (fault : Nat → Bool) (lba n : Nat) : Prop :=
  irp.mapped = false ∨ irp.allocated = false ∨ ¬ Reachable d fault lba n

/-- `process_write` leaves ciphertext in every encrypted sector, or fails and leaves the disk alone. -/
def WriteClosed (v : AttachedVolume σ) (burst : Option VolumeCipher) (irp : Irp) (d : Device) (lba n : Nat) : Prop :=
  match (getPipeline burst v).1 with
  | none => (processWrite v burst irp d).1.status ≠ .success ∧ (processWrite v burst irp d).2.2.2 = d
  | some cipher => (processWrite v burst irp d).1.status = .success →
    ∀ k, k < n → Encrypted v.offsetSector (pathOffset v) lba k →
      (processWrite v burst irp d).2.2.2.sector (lba + k) =
        cipher.encryptSector (relSector v.offsetSector lba k) (slice irp.buffer (k * d.ss) d.ss)

/-- `process_read` answers with the plaintext of every encrypted sector, or fails. -/
def ReadClosed (v : AttachedVolume σ) (burst : Option VolumeCipher) (irp : Irp) (d : Device) (lba n : Nat) : Prop :=
  match (getPipeline burst v).1 with
  | none => (processRead v burst irp d).1.status ≠ .success
  | some cipher => (processRead v burst irp d).1.status = .success →
    ∀ k, k < n → Encrypted v.offsetSector (pathOffset v) lba k →
      slice (processRead v burst irp d).1.buffer (k * d.ss) d.ss =
        cipher.decryptSector (relSector v.offsetSector lba k) (d.sector (lba + k))

variable {v : AttachedVolume σ} {burst : Option VolumeCipher} {irp : Irp} {d : Device} {lba n : Nat}

theorem cipherAvailable_iff : CipherAvailable v burst ↔ (getPipeline burst v).1 ≠ none := by
  cases burst with
  | some c => simp [CipherAvailable, getPipeline]
  | none =>
    rw [CipherAvailable, getPipeline, AttachedVolume.nextCipher]
    cases v.cipherSupplier with
    | none => simp
    | some s => simp

/-- An aimed request goes through the cipher it gets, or through none. -/
theorem cryptFragment_aimed (burst : Option VolumeCipher)
    (pipeline : VolumeCipher → UInt64 → UInt64 → Bytes → Nat → Bytes) {first : UInt64}
    (hfirst : first.toNat = lba) (haim : Aimed v.offsetSector (pathOffset v) lba n) (frag : Bytes) (ss : Nat) :
    (cryptFragment pipeline v burst first frag ss).1 =
      match (getPipeline burst v).1 with
      | none => frag
      | some cipher => pipeline cipher (first - v.offsetSector) v.encryptedBoundary frag ss := by
  have hrange : cryptoRange v first = some (first - v.offsetSector, v.encryptedBoundary) := by
    rw [cryptoRange_eq, if_pos]
    rw [hfirst]
    exact ⟨haim.start, haim.inData, haim.below⟩
  rw [cryptFragment, hrange]
  simp only
  cases hg : getPipeline burst v with
  | mk cipher v' => cases cipher <;> rfl

/-- Sector `k` of a fragment that went through the cipher. -/
theorem slice_aimed {area : Bytes → Nat → UInt64 → Bytes} {sector : UInt64 → Bytes → Bytes} {ss : Nat} (hs : 0 < ss)
    (harea : AreaLaw ss area sector) {first : UInt64} (hfirst : first.toNat = lba)
    (hlo : v.offsetSector.toNat ≤ lba) {frag : Bytes} (hl : frag.length = n * ss) {k : Nat} (hk : k < n)
    (henc : Encrypted v.offsetSector (pathOffset v) lba k) :
    slice (transformPrefix area (first - v.offsetSector) v.encryptedBoundary frag ss) (k * ss) ss =
      sector (relSector v.offsetSector lba k) (slice frag (k * ss) ss) := by
  have hsub : (first - v.offsetSector).toNat = lba - v.offsetSector.toNat := by
    rw [UInt64.toNat_sub_of_le _ _ (UInt64.le_iff_toNat_le.mpr (by rw [hfirst]; exact hlo)), hfirst]
  have hb : lba + k < v.offsetSector.toNat + v.encryptedBoundary.toNat := henc.1
  rw [slice_transformPrefix hs harea hl hk, if_pos (by rw [hsub]; omega), relSector, UInt64.ofNat_add, ← hsub,
    UInt64.ofNat_toNat]

theorem refused_iff {fault : Nat → Bool} :
    Refused irp d fault lba n ↔ (!irp.mapped || !irp.allocated) = true ∨ ¬ Reachable d fault lba n := by
  rw [Refused, Bool.or_eq_true, Bool.not_eq_true', Bool.not_eq_true', or_assoc]

theorem writeClosed_iff (hcov : irp.Covers d.ss lba n) (hss : v.sectorSize = d.sectorSize) (hs : 0 < d.ss)
    (hlaw : ∀ c, (getPipeline burst v).1 = some c → LawfulCipher d.ss c)
    (haim : Aimed v.offsetSector (pathOffset v) lba n) :
    WriteClosed v burst irp d lba n ↔ CipherAvailable v burst ∨ Refused irp d d.writeFault lba n := by
  have hfirst := hcov.toNat_firstLba hss hs
  have hne := Nat.ne_of_gt haim.count
  have heq := processWrite_eq burst hcov hss hs
  rw [if_neg hne] at heq
  rw [cipherAvailable_iff, WriteClosed, refused_iff]
  by_cases hmap : (!irp.mapped || !irp.allocated) = true
  · rw [if_pos hmap] at heq
    rw [heq]
    cases (getPipeline burst v).1 with
    | none => simp [Irp.complete, hmap]
    | some cipher => simp [Irp.complete]
  · rw [if_neg hmap] at heq
    have hfrag := cryptFragment_aimed burst encryptWrite hfirst haim irp.buffer d.ss
    generalize cryptFragment encryptWrite v burst (irp.byteOffset / v.sectorSize.toUInt64) irp.buffer d.ss = w
      at hfrag heq
    obtain ⟨frag, burst', v'⟩ := w
    simp only at hfrag heq
    cases hg : (getPipeline burst v).1 with
    | none =>
      rw [hg] at hfrag
      obtain rfl : frag = irp.buffer := hfrag
      by_cases hreach : Reachable d d.writeFault lba n
      · rw [writeSectors_of_reachable hs hcov.buffer (by rw [hfirst]; exact hreach)] at heq
        simp [heq, hmap, hreach]
      · rw [writeSectors_of_not_reachable hs hcov.buffer (by rw [hfirst]; exact hreach)] at heq
        simp [heq, Irp.complete, hreach]
    | some cipher =>
      rw [hg] at hfrag
      obtain rfl : frag = encryptWrite cipher _ _ _ _ := hfrag
      simp only [ne_eq, reduceCtorEq, not_false_eq_true, true_or, iff_true]
      intro hok k hk henc
      have hc := hlaw cipher hg
      have hlen : (encryptWrite cipher (irp.byteOffset / v.sectorSize.toUInt64 - v.offsetSector) v.encryptedBoundary
          irp.buffer d.ss).length = n * d.ss := (length_transformPrefix hc.encryptArea).trans hcov.buffer
      generalize hw : writeSectors d (irp.byteOffset / v.sectorSize.toUInt64)
        (encryptWrite cipher (irp.byteOffset / v.sectorSize.toUInt64 - v.offsetSector) v.encryptedBoundary
          irp.buffer d.ss) = w at heq
      obtain ⟨r, d'⟩ := w
      cases r with
      | error e =>
        rw [heq] at hok
        cases hok
      | ok u =>
        have hsector := sector_writeSectors hlen hw (lba + k)
        rw [hfirst, if_pos (by omega), Nat.add_sub_cancel_left] at hsector
        rw [heq]
        exact hsector.trans (slice_aimed hs hc.encryptArea hfirst haim.start hcov.buffer hk henc)

theorem readClosed_iff (hcov : irp.Covers d.ss lba n) (hss : v.sectorSize = d.sectorSize) (hs : 0 < d.ss)
    (hlaw : ∀ c, (getPipeline burst v).1 = some c → LawfulCipher d.ss c)
    (haim : Aimed v.offsetSector (pathOffset v) lba n) :
    ReadClosed v burst irp d lba n ↔ CipherAvailable v burst ∨ Refused irp d d.readFault lba n := by
  have hfirst := hcov.toNat_firstLba hss hs
  have hne := Nat.ne_of_gt haim.count
  have heq := processRead_eq burst hcov hss hs
  rw [if_neg hne] at heq
  rw [cipherAvailable_iff, ReadClosed, refused_iff]
  by_cases hmap : (!irp.mapped || !irp.allocated) = true
  · rw [if_pos hmap] at heq
    rw [heq]
    cases (getPipeline burst v).1 with
    | none => simp [Irp.complete, hmap]
    | some cipher => simp [Irp.complete]
  · rw [if_neg hmap] at heq
    by_cases hreach : Reachable d d.readFault lba n
    · have hfrag := cryptFragment_aimed burst decryptRead hfirst haim (d.area lba n) d.ss
      rw [readSectors_of_reachable hs (by rw [hfirst]; exact hreach), hfirst] at heq
      simp only [hfrag] at heq
      rw [heq]
      cases hg : (getPipeline burst v).1 with
      | none => simp [hmap, hreach]
      | some cipher =>
        simp only [ne_eq, reduceCtorEq, not_false_eq_true, true_or, iff_true]
        intro _ k hk henc
        have hc := hlaw cipher hg
        have hlen : (decryptRead cipher (irp.byteOffset / v.sectorSize.toUInt64 - v.offsetSector) v.encryptedBoundary
            (d.area lba n) d.ss).length = n * d.ss := (length_transformPrefix hc.decryptArea).trans (length_area d lba n)
        rw [copyAt_zero_of_length_le (Nat.le_of_eq (hcov.buffer.trans hlen.symm))]
        exact (slice_aimed hs hc.decryptArea hfirst haim.start (length_area d lba n) hk henc).trans
          (by rw [slice_area d hk])
    · rw [readSectors_of_not_reachable hs (by rw [hfirst]; exact hreach)] at heq
      rw [heq]
      cases (getPipeline burst v).1 with
      | none => simp [Irp.complete, hreach]
      | some cipher => simp [Irp.complete]

end Driver

section Loader

/-- `hooked_write_blocks` leaves ciphertext in every encrypted sector, or fails and leaves the disk alone. -/
def HookWriteClosed (F : Firmware) (h : BlockIoHookEngine) (call : Nat) (lba : UInt64) (n : Nat) (buffer : Bytes)
    (d : Device) : Prop :=
  match h.cipherSupplier.getCipher call with
  | none =>
    (hookedWriteBlocks F (some ⟨some h⟩) (some d.sectorSize) call lba (n * d.ss) (some buffer) d).1 ≠ .success ∧
      (hookedWriteBlocks F (some ⟨some h⟩) (some d.sectorSize) call lba (n * d.ss) (some buffer) d).2 = d
  | some cipher =>
    (hookedWriteBlocks F (some ⟨some h⟩) (some d.sectorSize) call lba (n * d.ss) (some buffer) d).1 = .success →
      ∀ k, k < n → Encrypted h.geometry.offsetSector h.geometry.encryptedOffset lba.toNat k →
        (hookedWriteBlocks F (some ⟨some h⟩) (some d.sectorSize) call lba (n * d.ss) (some buffer) d).2.sector
            (lba.toNat + k) =
          cipher.encryptSector (relSector h.geometry.offsetSector lba.toNat k) (slice buffer (k * d.ss) d.ss)

/-- `hooked_read_blocks` answers with the plaintext of every encrypted sector, or fails. -/
def HookReadClosed (F : Firmware) (h : BlockIoHookEngine) (call : Nat) (lba : UInt64) (n : Nat) (buffer : Bytes)
    (d : Device) : Prop :=
  match h.cipherSupplier.getCipher call with
  | none =>
    (hookedReadBlocks F (some ⟨some h⟩) (some d.sectorSize) call lba (n * d.ss) (some buffer) d).1 ≠ .success
  | some cipher =>
    (hookedReadBlocks F (some ⟨some h⟩) (some d.sectorSize) call lba (n * d.ss) (some buffer) d).1 = .success →
      ∀ k, k < n → Encrypted h.geometry.offsetSector h.geometry.encryptedOffset lba.toNat k →
        ∃ out, (hookedReadBlocks F (some ⟨some h⟩) (some d.sectorSize) call lba (n * d.ss) (some buffer) d).2 =
            some out ∧
          slice out (k * d.ss) d.ss =
            cipher.decryptSector (relSector h.geometry.offsetSector lba.toNat k) (d.sector (lba.toNat + k))

variable {F : Firmware} {h : BlockIoHookEngine} {call : Nat} {lba : UInt64} {n : Nat} {buffer : Bytes} {d : Device}

/-- A whole-sector write through the hook. -/
theorem hookedWriteBlocks_eq (hs : 0 < d.ss) (hn : 0 < n) (hl : buffer.length = n * d.ss) :
    hookedWriteBlocks F (some ⟨some h⟩) (some d.sectorSize) call lba (n * d.ss) (some buffer) d =
      match h.cipherSupplier.getCipher call with
      | none => F.writeBlocks d lba (n * d.ss) (some buffer)
      | some cipher =>
        F.writeBlocks d lba (hookLoop h.geometry cipher.encryptSector lba d.ss buffer).length
          (some (hookLoop h.geometry cipher.encryptSector lba d.ss buffer)) := by
  have hss : d.sectorSize.toNat = d.ss := rfl
  have hne : ¬ (n * d.ss = 0 ∨ d.sectorSize = 0) := by
    rw [← UInt32.toNat_inj]
    have := Nat.mul_pos hn hs
    exact not_or.mpr ⟨Nat.ne_of_gt this, Nat.ne_of_gt hs⟩
  simp only [hookedWriteBlocks, if_neg hne, BlockIoHookEngine.encryptBeforeWrite, hss, if_neg (Nat.ne_of_gt hs),
    List.take_of_length_le (Nat.le_of_eq hl)]
  cases h.cipherSupplier.getCipher call with
  | none => simp only [hl]
  | some cipher => rfl

/-- A whole-sector read through the hook that the firmware serves. -/
theorem hookedReadBlocks_eq (hs : 0 < d.ss) (hn : 0 < n) {out : Bytes} (hl : out.length = n * d.ss)
    (hread : F.readBlocks d lba (n * d.ss) (some buffer) = (.success, some out)) :
    hookedReadBlocks F (some ⟨some h⟩) (some d.sectorSize) call lba (n * d.ss) (some buffer) d =
      (.success, some
        (match h.cipherSupplier.getCipher call with
        | none => out
        | some cipher => hookLoop h.geometry cipher.decryptSector lba d.ss out)) := by
  have hss : d.sectorSize.toNat = d.ss := rfl
  have hne : ¬ (n * d.ss = 0 ∨ d.sectorSize = 0) := by
    rw [← UInt32.toNat_inj]
    have := Nat.mul_pos hn hs
    exact not_or.mpr ⟨Nat.ne_of_gt this, Nat.ne_of_gt hs⟩
  simp only [hookedReadBlocks, hread, ne_eq, not_true_eq_false, if_false, if_neg hne,
    BlockIoHookEngine.decryptAfterRead, hss, if_neg (Nat.ne_of_gt hs), List.take_of_length_le (Nat.le_of_eq hl),
    List.drop_eq_nil_of_le (Nat.le_of_eq hl)]
  cases h.cipherSupplier.getCipher call with
  | none => simp
  | some cipher => simp

/-- Sector `k` of a buffer that went through the hook. -/
theorem slice_hookLoop_aimed {f : UInt64 → Bytes → Bytes} (hf : ∀ rel s, (f rel s).length = s.length) {g : HookGeometry}
    (hs : 0 < d.ss) (hlo : g.offsetSector.toNat ≤ lba.toNat) {buf : Bytes} (hl : buf.length = n * d.ss)
    (hend : lba.toNat + n ≤ d.sectors) {k : Nat} (hk : k < n)
    (henc : Encrypted g.offsetSector g.encryptedOffset lba.toNat k) :
    slice (hookLoop g f lba d.ss buf) (k * d.ss) d.ss =
      f (relSector g.offsetSector lba.toNat k) (slice buf (k * d.ss) d.ss) := by
  have hlt : d.sectors < 2 ^ 64 := d.totalSectors.toNat_lt
  rw [slice_hookLoop hf lba hs hl hk, encryptedRel_eq g (by omega), if_pos ⟨by omega, henc.2, henc.1⟩, relSector,
    Nat.sub_add_comm hlo]

theorem hookWriteClosed_iff (hF : F.Lawful) (hs : 0 < d.ss) (hl : buffer.length = n * d.ss)
    (hlaw : ∀ c, h.cipherSupplier.getCipher call = some c → InPlaceCipher c)
    (haim : Aimed h.geometry.offsetSector h.geometry.encryptedOffset lba.toNat n) :
    HookWriteClosed F h call lba n buffer d ↔
      h.cipherSupplier.getCipher call ≠ none ∨
        (F.writeBlocks d lba (n * d.ss) (some buffer)).1 ≠ .success ∧
          (F.writeBlocks d lba (n * d.ss) (some buffer)).2 = d := by
  rw [HookWriteClosed, hookedWriteBlocks_eq hs haim.count hl]
  cases hg : h.cipherSupplier.getCipher call with
  | none => simp
  | some cipher =>
    simp only [ne_eq, reduceCtorEq, not_false_eq_true, true_or, iff_true]
    have hc := hlaw cipher hg
    have hlen : (hookLoop h.geometry cipher.encryptSector lba d.ss buffer).length = n * d.ss :=
      (length_hookLoop hc.length_encryptSector lba d.ss buffer).trans hl
    rw [hlen]
    intro hok k hk henc
    obtain ⟨hend, hsector⟩ := hF.write hs hlen (Prod.ext hok rfl)
    exact (hsector k hk).trans (slice_hookLoop_aimed hc.length_encryptSector hs haim.start hl hend hk henc)

theorem hookReadClosed_iff (hF : F.Lawful) (hs : 0 < d.ss) (hl : buffer.length = n * d.ss)
    (hlaw : ∀ c, h.cipherSupplier.getCipher call = some c → InPlaceCipher c)
    (haim : Aimed h.geometry.offsetSector h.geometry.encryptedOffset lba.toNat n) :
    HookReadClosed F h call lba n buffer d ↔
      h.cipherSupplier.getCipher call ≠ none ∨ (F.readBlocks d lba (n * d.ss) (some buffer)).1 ≠ .success := by
  rw [HookReadClosed]
  by_cases hok : (F.readBlocks d lba (n * d.ss) (some buffer)).1 = .success
  · obtain ⟨hend, hout⟩ := hF.read hs hl (Prod.ext hok rfl)
    rw [hookedReadBlocks_eq hs haim.count (length_area d lba.toNat n) (Prod.ext hok hout)]
    cases hg : h.cipherSupplier.getCipher call with
    | none => simp [hok]
    | some cipher =>
      simp only [ne_eq, reduceCtorEq, not_false_eq_true, true_or, iff_true]
      intro _ k hk henc
      have hslice := slice_hookLoop_aimed (hlaw cipher hg).length_decryptSector hs haim.start
        (length_area d lba.toNat n) hend hk henc
      rw [slice_area d hk] at hslice
      exact ⟨_, rfl, hslice⟩
  · have hfail : (hookedReadBlocks F (some ⟨some h⟩) (some d.sectorSize) call lba (n * d.ss) (some buffer) d).1 ≠
        .success := by
      rw [hookedReadBlocks]
      simp only [if_pos hok]
      exact hok
    cases h.cipherSupplier.getCipher call with
    | none => simp [hfail, hok]
    | some cipher => simp [hfail]

end Loader

/-- Driver and loader fail closed on a request exactly when this request gets a cipher or is refused anyway. -/
theorem fails_closed_iff {σ : Type} (v : AttachedVolume σ) (burst : Option VolumeCipher) (irp : Irp) {F : Firmware}
    (hF : F.Lawful) (h : BlockIoHookEngine) (call : Nat) (buffer : Bytes) {d : Device} (hs : 0 < d.ss) (lba : UInt64)
    (n : Nat) :
    (v.sectorSize = d.sectorSize → irp.Covers d.ss lba.toNat n → Aimed v.offsetSector (pathOffset v) lba.toNat n →
      (∀ c, (getPipeline burst v).1 = some c → LawfulCipher d.ss c) →
        (WriteClosed v burst irp d lba.toNat n ↔ CipherAvailable v burst ∨ Refused irp d d.writeFault lba.toNat n) ∧
        (ReadClosed v burst irp d lba.toNat n ↔ CipherAvailable v burst ∨ Refused irp d d.readFault lba.toNat n)) ∧
    (buffer.length = n * d.ss → Aimed h.geometry.offsetSector h.geometry.encryptedOffset lba.toNat n →
      (∀ c, h.cipherSupplier.getCipher call = some c → InPlaceCipher c) →
        (HookWriteClosed F h call lba n buffer d ↔
          h.cipherSupplier.getCipher call ≠ none ∨
            (F.writeBlocks d lba (n * d.ss) (some buffer)).1 ≠ .success ∧
              (F.writeBlocks d lba (n * d.ss) (some buffer)).2 = d) ∧
        (HookReadClosed F h call lba n buffer d ↔
          h.cipherSupplier.getCipher call ≠ none ∨
            (F.readBlocks d lba (n * d.ss) (some buffer)).1 ≠ .success)) := by
  constructor
  · intro hss hcov haim hlaw
    exact ⟨writeClosed_iff hcov hss hs hlaw haim, readClosed_iff hcov hss hs hlaw haim⟩
  · intro hl haim hlaw
    exact ⟨hookWriteClosed_iff hF hs hl hlaw haim, hookReadClosed_iff hF hs hl hlaw haim⟩

/-! ## A keyed and an unkeyed supplier -/

/-- Firmware that serves the disk itself. -/
def diskFirmware : Firmware where
  readBlocks d lba size buffer :=
    match buffer, readSectors d lba size with
    | some buf, .ok out => (.success, some (copyAt buf 0 out))
    | buffer, _ => (.deviceError, buffer)
  writeBlocks d lba size buffer :=
    match buffer with
    | none => (.deviceError, d)
    | some buf =>
      match writeSectors d lba (buf.take size) with
      | (.ok _, d') => (.success, d')
      | (.error _, d') => (.deviceError, d')

theorem diskFirmware_lawful : diskFirmware.Lawful where
  read := by
    intro d lba n buffer out hs hl hread
    simp only [diskFirmware] at hread
    by_cases hr : Reachable d d.readFault lba.toNat n
    · rw [readSectors_of_reachable hs hr] at hread
      refine ⟨hr.1, ?_⟩
      rw [← (Prod.mk.inj hread).2, copyAt_zero_of_length_le (by rw [length_area, hl])]
    · rw [readSectors_of_not_reachable hs hr] at hread
      cases (Prod.mk.inj hread).1
  write := by
    intro d d' lba n buffer hs hl hwrite
    simp only [diskFirmware, List.take_of_length_le (Nat.le_of_eq hl)] at hwrite
    by_cases hr : Reachable d d.writeFault lba.toNat n
    · refine ⟨hr.1, ?_⟩
      intro k hk
      rw [writeSectors_of_reachable hs hl hr] at hwrite
      have hsector := sector_writeSectors hl (writeSectors_of_reachable hs hl hr) (lba.toNat + k)
      rw [if_pos (by omega), Nat.add_sub_cancel_left] at hsector
      rw [← (Prod.mk.inj hwrite).2]
      exact hsector
    · rw [writeSectors_of_not_reachable hs hl hr] at hwrite
      cases (Prod.mk.inj hwrite).1

theorem xtsVolumeCipher_inPlace (aes : XtsCipher.Aes256) (c : XtsCipher.XtsVolumeCipher) :
    InPlaceCipher (xtsVolumeCipher aes c) where
  length_encryptSector _ _ := XtsCipher.length_sectorInner _ _ _
  length_decryptSector _ _ := XtsCipher.length_sectorInner _ _ _

/-- A request for sector 0. -/
def firstSector : Irp := ⟨0, 512, List.replicate 512 7, true, true⟩

def smallDisk : Device := blank 512 8 (by decide)

/-- A volume of two data sectors, the first of them encrypted, with the answers of its supplier. -/
def halfEncrypted (supplier : VolumeCipherSupplier) : AttachedVolume Unit where
  sectorSize := 512
  ioConfig := .encrypted (some supplier) 0 ⟨1, 2⟩
  encryption := .new 0 ⟨1, 2⟩
  offsetStore := ()
  encryptedBoundary := 1
  cipherCalls := 0

theorem firstSector_covers : firstSector.Covers smallDisk.ss 0 1 := ⟨by decide, by decide, List.length_replicate⟩

theorem halfEncrypted_aimed (supplier : VolumeCipherSupplier) :
    Aimed (halfEncrypted supplier).offsetSector (pathOffset (halfEncrypted supplier)) 0 1 := by
  have haim : Aimed 0 ⟨1, 2⟩ 0 1 := ⟨by decide, by decide, by decide, by decide⟩
  exact haim

/-- With a key the first sector goes through the cipher, in the driver and in the loader. -/
theorem keyed_supplier_fails_closed :
    (WriteClosed (halfEncrypted (staticCipherSupplier Aes.aes256 (List.Vector.replicate 32 1)
        (List.Vector.replicate 32 2))) none firstSector smallDisk 0 1 ∧
      ReadClosed (halfEncrypted (staticCipherSupplier Aes.aes256 (List.Vector.replicate 32 1)
        (List.Vector.replicate 32 2))) none firstSector smallDisk 0 1) ∧
    HookWriteClosed diskFirmware (hookOf Aes.aes256 (List.Vector.replicate 32 1) (List.Vector.replicate 32 2) 0 ⟨1, 2⟩)
        0 0 1 (List.replicate 512 7) smallDisk ∧
      HookReadClosed diskFirmware (hookOf Aes.aes256 (List.Vector.replicate 32 1) (List.Vector.replicate 32 2) 0
        ⟨1, 2⟩) 0 0 1 (List.replicate 512 7) smallDisk := by
  have hiff := fails_closed_iff (halfEncrypted (staticCipherSupplier Aes.aes256 (List.Vector.replicate 32 1)
    (List.Vector.replicate 32 2))) none firstSector diskFirmware_lawful
    (hookOf Aes.aes256 (List.Vector.replicate 32 1) (List.Vector.replicate 32 2) 0 ⟨1, 2⟩) 0 (List.replicate 512 7)
    (d := smallDisk) (by decide) 0 1
  have hdriver := hiff.1 rfl firstSector_covers (halfEncrypted_aimed _) (by
    intro c hc
    obtain rfl := Option.some.inj hc
    exact xtsVolumeCipher_lawful (by decide) _ _)
  have hloader := hiff.2 List.length_replicate ⟨by decide, by decide, by decide, by decide⟩ (by
    intro c hc
    obtain rfl := Option.some.inj hc
    exact xtsVolumeCipher_inPlace _ _)
  have havailable : CipherAvailable (halfEncrypted (staticCipherSupplier Aes.aes256 (List.Vector.replicate 32 1)
      (List.Vector.replicate 32 2))) none := .inr ⟨_, rfl, Option.some_ne_none _⟩
  exact ⟨⟨hdriver.1.mpr (.inl havailable), hdriver.2.mpr (.inl havailable)⟩,
    hloader.1.mpr (.inl (Option.some_ne_none _)), hloader.2.mpr (.inl (Option.some_ne_none _))⟩

/-- A supplier without a key. -/
def unkeyed : VolumeCipherSupplier := ⟨fun _ => none⟩

/-- Without a key all four requests below the boundary succeed, and the bytes pass as they are. -/
theorem unkeyed_supplier_passes_plaintext :
    Aimed (halfEncrypted unkeyed).offsetSector (pathOffset (halfEncrypted unkeyed)) 0 1 ∧
      (¬ WriteClosed (halfEncrypted unkeyed) none firstSector smallDisk 0 1 ∧
        ¬ ReadClosed (halfEncrypted unkeyed) none firstSector smallDisk 0 1) ∧
      ¬ HookWriteClosed diskFirmware ⟨⟨0, ⟨1, 2⟩⟩, unkeyed⟩ 0 0 1 (List.replicate 512 7) smallDisk ∧
      ¬ HookReadClosed diskFirmware ⟨⟨0, ⟨1, 2⟩⟩, unkeyed⟩ 0 0 1 (List.replicate 512 7) smallDisk := by
  have hreach : Reachable smallDisk (fun _ => false) 0 1 := ⟨by decide, fun _ _ => rfl⟩
  have hlaw : ∀ c, (getPipeline none (halfEncrypted unkeyed)).1 = some c → LawfulCipher smallDisk.ss c := by
    intro c hc
    cases hc
  have hnone : ¬ CipherAvailable (halfEncrypted unkeyed) none := by
    rw [cipherAvailable_iff]
    exact fun h => h rfl
  have hserved : ¬ Refused firstSector smallDisk (fun _ => false) 0 1 := by
    rw [refused_iff]
    exact not_or.mpr ⟨by decide, fun h => h hreach⟩
  have hl : (List.replicate 512 7 : Bytes).length = 1 * smallDisk.ss := List.length_replicate
  have haim : Aimed (0 : UInt64) ⟨1, 2⟩ (0 : UInt64).toNat 1 := ⟨by decide, by decide, by decide, by decide⟩
  refine ⟨halfEncrypted_aimed _, ⟨?_, ?_⟩, ?_, ?_⟩
  · rw [writeClosed_iff firstSector_covers rfl (by decide) hlaw (halfEncrypted_aimed _)]
    exact not_or.mpr ⟨hnone, hserved⟩
  · rw [readClosed_iff firstSector_covers rfl (by decide) hlaw (halfEncrypted_aimed _)]
    exact not_or.mpr ⟨hnone, hserved⟩
  · rw [hookWriteClosed_iff diskFirmware_lawful (by decide) hl (fun c hc => by cases hc) haim]
    simp only [unkeyed, ne_eq, not_true_eq_false, false_or, not_and_or, not_not]
    left
    simp only [diskFirmware, List.take_of_length_le (Nat.le_of_eq hl)]
    have hwrite : Reachable smallDisk smallDisk.writeFault (0 : UInt64).toNat 1 := hreach
    rw [writeSectors_of_reachable (by decide) hl hwrite]
  · rw [hookReadClosed_iff diskFirmware_lawful (by decide) hl (fun c hc => by cases hc) haim]
    simp only [unkeyed, ne_eq, not_true_eq_false, false_or, not_not]
    simp only [diskFirmware]
    have hread : Reachable smallDisk smallDisk.readFault (0 : UInt64).toNat 1 := hreach
    rw [readSectors_of_reachable (by decide) hread]

end FailClosed
