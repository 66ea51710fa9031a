import VolumeCrypt.Transparency

/-!
# Bytes that a request transfers

`process_read` and `process_write` divide the byte offset and the length of a request by the sector size and
go on with whole sectors. A success reports the bytes of these sectors. The remainder of the offset is lost,
and the first sector decides for the others whether they are decrypted. The volume is the memory of its
plain bytes here: what a byte offset of a request names.
-/
namespace ByteTransfer

open ByteString ByteMemory VckTypes SectorIo CipherTraits SweepEngine VolumeSweep DataPath Transparency

/-- The numbers of a volume and its device. -/
structure Shape where
  sectorSize : UInt32
  totalSectors : UInt64
  offsetSector : UInt64
  dataSectors : UInt64
  encryptedBoundary : UInt64
  addressable : totalSectors.toNat * sectorSize.toNat < 2 ^ 64

namespace Shape

variable (S : Shape)

def ss : Nat := S.sectorSize.toNat

/-- The sector holds ciphertext. -/
def Encrypted (lba : Nat) : Prop :=
  S.offsetSector.toNat ≤ lba ∧ lba < S.offsetSector.toNat + min S.dataSectors.toNat S.encryptedBoundary.toNat

instance (lba : Nat) : Decidable (S.Encrypted lba) := inferInstanceAs (Decidable (_ ∧ _))

end Shape

/-- A volume and its device have these numbers. -/
structure Fits {σ : Type} (S : Shape) (v : AttachedVolume σ) (d : Device) : Prop where
  sectorSize : v.sectorSize = S.sectorSize
  device : d.sectorSize = S.sectorSize
  totalSectors : d.totalSectors = S.totalSectors
  offsetSector : v.offsetSector = S.offsetSector
  dataSectors : v.dataSectors = S.dataSectors
  encryptedBoundary : v.encryptedBoundary = S.encryptedBoundary

/-- A sector of the device as the volume shows it. -/
def volumeSector (cipher : VolumeCipher) (S : Shape) (d : Device) (lba : Nat) : Bytes :=
  if S.Encrypted lba then cipher.decryptSector (UInt64.ofNat (lba - S.offsetSector.toNat)) (d.sector lba)
  else d.sector lba

/-- The plain bytes of the volume. -/
def plainBytes (cipher : VolumeCipher) (S : Shape) (d : Device) : Memory :=
  fun a => (volumeSector cipher S d (a / S.ss)).getD (a % S.ss) 0

/-- If the read succeeds, its buffer holds the plain bytes from its offset on, as many as it reports. -/
def ReadTransfers {σ : Type} (S : Shape) (cipher : VolumeCipher) (v : AttachedVolume σ) (burst : Option VolumeCipher)
    (irp : Irp) (d : Device) : Prop :=
  let c := (processRead v burst irp d).1
  c.status = .success →
    c.buffer.take c.information = load (plainBytes cipher S d) irp.byteOffset.toNat c.information

/-- If the write succeeds, the first bytes of its buffer, as many as it reports, are the plain bytes from its offset
on, and no other byte has changed. -/
def WriteTransfers {σ : Type} (S : Shape) (cipher : VolumeCipher) (v : AttachedVolume σ) (burst : Option VolumeCipher)
    (irp : Irp) (d : Device) : Prop :=
  let c := (processWrite v burst irp d).1
  let d' := (processWrite v burst irp d).2.2.2
  c.status = .success →
    load (plainBytes cipher S d') irp.byteOffset.toNat c.information = irp.buffer.take c.information ∧
      ∀ a, a < irp.byteOffset.toNat ∨ irp.byteOffset.toNat + c.information ≤ a → d'.bytes a = d.bytes a

/-- Requests of this offset and length transfer on every volume of this shape, whatever its cipher, its device and
the buffer. -/
def Transfers (S : Shape) (irp : Irp)
    (transfer : {σ : Type} → Shape → VolumeCipher → AttachedVolume σ → Option VolumeCipher → Irp → Device → Prop) : Prop :=
  ∀ (σ : Type) (v : AttachedVolume σ) (burst : Option VolumeCipher) (cipher : VolumeCipher) (d : Device)
    (buffer : Bytes), Fits S v d → LawfulCipher S.ss cipher → Keyed v burst cipher →
    buffer.length = irp.length.toNat → transfer S cipher v burst { irp with buffer := buffer } d

/-- No byte can be transferred: less than a sector, no buffer, or sectors that the device does not have. -/
def Idle (S : Shape) (irp : Irp) : Prop :=
  irp.length.toNat / S.ss = 0 ∨ irp.mapped = false ∨ irp.allocated = false ∨
    S.totalSectors.toNat < irp.byteOffset.toNat / S.ss + irp.length.toNat / S.ss

/-- The request starts at a sector. It does not start in front of the data region and run into its encrypted
part, nor start in the encrypted part and run past the end of the region up to a boundary behind it. -/
def Exact (S : Shape) (irp : Irp) : Prop :=
  S.ss ∣ irp.byteOffset.toNat ∧
    (S.offsetSector.toNat ≤ irp.byteOffset.toNat / S.ss ∨
      irp.byteOffset.toNat / S.ss + irp.length.toNat / S.ss ≤ S.offsetSector.toNat ∨
      min S.dataSectors.toNat S.encryptedBoundary.toNat = 0) ∧
    (S.Encrypted (irp.byteOffset.toNat / S.ss) →
      irp.byteOffset.toNat / S.ss + irp.length.toNat / S.ss ≤ S.offsetSector.toNat + S.dataSectors.toNat ∨
        S.encryptedBoundary.toNat ≤ S.dataSectors.toNat)

/-! ## Plain sectors -/

section

variable {cipher : VolumeCipher} {S : Shape} {d : Device}

theorem length_volumeSector (hc : LawfulCipher S.ss cipher) (hss : d.ss = S.ss) (lba : Nat) :
    (volumeSector cipher S d lba).length = S.ss := by
  have hlen : (d.sector lba).length = S.ss := (length_sector d lba).trans hss
  rw [volumeSector]
  split
  · exact hc.decryptArea.length_sector _ hlen
  · exact hlen

/-- The plain bytes of whole sectors. -/
theorem slice_load_plainBytes (hc : LawfulCipher S.ss cipher) (hss : d.ss = S.ss) (hs : 0 < S.ss) (lba : Nat)
    {n k : Nat} (hk : k < n) :
    slice (load (plainBytes cipher S d) (lba * S.ss) (n * S.ss)) (k * S.ss) S.ss = volumeSector cipher S d (lba + k) := by
  have hle : k * S.ss + S.ss ≤ n * S.ss := by
    rw [← Nat.succ_mul]
    exact Nat.mul_le_mul_right _ hk
  rw [slice_load _ hle, ← Nat.add_mul]
  apply List.ext_getElem?
  intro i
  have hlen := length_volumeSector hc hss (lba + k)
  rw [getElem?_load]
  by_cases hi : i < S.ss
  · have hdiv : ((lba + k) * S.ss + i) / S.ss = lba + k := by
      rw [Nat.add_comm, Nat.add_mul_div_right _ _ hs, Nat.div_eq_of_lt hi, Nat.zero_add]
    have hmod : ((lba + k) * S.ss + i) % S.ss = i := by
      rw [Nat.add_comm, Nat.add_mul_mod_self_right, Nat.mod_eq_of_lt hi]
    rw [if_pos hi, plainBytes, hdiv, hmod, List.getD_eq_getElem _ _ (by omega), List.getElem?_eq_getElem (by omega)]
  · rw [if_neg hi, List.getElem?_eq_none (by omega)]

end

/-! ## What a request does -/

/-- The first sector is an encrypted one and sector `k` of the request lies below the boundary. -/
def Coded (S : Shape) (first k : Nat) : Prop :=
  S.offsetSector.toNat ≤ first ∧ first < S.offsetSector.toNat + S.dataSectors.toNat ∧
    first + k < S.offsetSector.toNat + S.encryptedBoundary.toNat

instance (S : Shape) (first k : Nat) : Decidable (Coded S first k) := inferInstanceAs (Decidable (_ ∧ _ ∧ _))

/-- The request can transfer whole sectors: it has some, a buffer, and they are on the device and not marked. -/
structure Runs (S : Shape) (irp : Irp) (d : Device) (fault : Nat → Bool) : Prop where
  some : 0 < irp.length.toNat / S.ss
  mapped : irp.mapped = true
  allocated : irp.allocated = true
  reachable : Reachable d fault (irp.byteOffset.toNat / S.ss) (irp.length.toNat / S.ss)

section

variable {σ : Type} {S : Shape} {v : AttachedVolume σ} {burst : Option VolumeCipher} {cipher : VolumeCipher} {d : Device}
  {irp : Irp}

theorem Fits.ss (h : Fits S v d) : d.ss = S.ss := congrArg UInt32.toNat h.device

theorem Fits.toNat_firstLba (h : Fits S v d) (b : UInt64) : (b / v.sectorSize.toUInt64).toNat = b.toNat / S.ss := by
  rw [UInt64.toNat_div, UInt32.toNat_toUInt64, h.sectorSize]
  rfl

/-- A fragment of `n` sectors comes out of the pipeline with the coded ones transformed. -/
theorem Fits.cryptFragment (h : Fits S v d) (hs : 0 < S.ss) (hkey : Keyed v burst cipher)
    (pipeline : VolumeCipher → UInt64 → UInt64 → Bytes → Nat → Bytes) {area : Bytes → Nat → UInt64 → Bytes}
    {sector : UInt64 → Bytes → Bytes} (hp : pipeline cipher = transformPrefix area) (harea : AreaLaw S.ss area sector)
    (b : UInt64) {frag : Bytes} {n : Nat} (hl : frag.length = n * S.ss) :
    (DataPath.cryptFragment pipeline v burst (b / v.sectorSize.toUInt64) frag S.ss).1.length = n * S.ss ∧
      ∀ k, k < n → slice (DataPath.cryptFragment pipeline v burst (b / v.sectorSize.toUInt64) frag S.ss).1 (k * S.ss)
        S.ss = if Coded S (b.toNat / S.ss) k then
          sector (UInt64.ofNat (b.toNat / S.ss + k - S.offsetSector.toNat)) (slice frag (k * S.ss) S.ss)
        else slice frag (k * S.ss) S.ss := by
  obtain ⟨frag', burst', v', heq, hlen, -, -, hslice⟩ :=
    cryptFragment_sectors pipeline hp harea hs hkey (b / v.sectorSize.toUInt64) hl
  rw [heq]
  refine ⟨hlen, ?_⟩
  intro k hk
  rw [hslice k hk, h.toNat_firstLba, h.offsetSector, h.dataSectors, h.encryptedBoundary]
  by_cases hcoded : Coded S (b.toNat / S.ss) k
  · have hidx : b.toNat / S.ss - S.offsetSector.toNat + k = b.toNat / S.ss + k - S.offsetSector.toNat := by
      have := hcoded.1
      omega
    rw [if_pos hcoded, if_pos (show _ ∧ _ ∧ _ from hcoded), hidx]
  · rw [if_neg hcoded, if_neg (show ¬ (_ ∧ _ ∧ _) from hcoded)]

theorem slice_take_sector {buffer : Bytes} {n k ss : Nat} (hk : k < n) :
    slice (buffer.take (n * ss)) (k * ss) ss = slice buffer (k * ss) ss := by
  have hle : k * ss + ss ≤ n * ss := by
    rw [← Nat.succ_mul]
    exact Nat.mul_le_mul_right _ hk
  rw [← slice_zero, slice_slice _ hle, Nat.zero_add]

theorem div_eq_zero_of {m n : Nat} (h : m = 0 ∨ n = 0) : n / m = 0 := by
  rcases h with rfl | rfl
  · exact Nat.div_zero n
  · exact Nat.zero_div m

theorem processRead_fst (h : Fits S v d) (burst : Option VolumeCipher) (irp : Irp) :
    (processRead v burst irp d).1 =
      if irp.length.toNat / S.ss = 0 then irp.complete .success
      else if !irp.mapped || !irp.allocated then irp.complete .unsuccessful
      else
        match readSectors d (irp.byteOffset / v.sectorSize.toUInt64) (irp.length.toNat / S.ss * d.ss) with
        | .error _ => irp.complete .unsuccessful
        | .ok frag => ⟨.success, irp.length.toNat / S.ss * S.ss, copyAt irp.buffer 0
            (DataPath.cryptFragment decryptRead v burst (irp.byteOffset / v.sectorSize.toUInt64) frag S.ss).1⟩ := by
  have hsize : v.sectorSize.toNat = S.ss := congrArg UInt32.toNat h.sectorSize
  unfold processRead
  simp only [hsize, h.ss]
  split
  · rename_i hzero
    rw [if_pos (div_eq_zero_of hzero)]
  · split
    · rfl
    · split
      · rfl
      · cases readSectors d (irp.byteOffset / v.sectorSize.toUInt64) (irp.length.toNat / S.ss * S.ss) <;> rfl

theorem processWrite_fst (h : Fits S v d) (burst : Option VolumeCipher) (irp : Irp) :
    ((processWrite v burst irp d).1, (processWrite v burst irp d).2.2.2) =
      if irp.length.toNat / S.ss = 0 then (irp.complete .success, d)
      else if !irp.mapped || !irp.allocated then (irp.complete .unsuccessful, d)
      else
        match writeSectors d (irp.byteOffset / v.sectorSize.toUInt64)
          (DataPath.cryptFragment encryptWrite v burst (irp.byteOffset / v.sectorSize.toUInt64)
            (irp.buffer.take (irp.length.toNat / S.ss * S.ss)) S.ss).1 with
        | (.error _, d') => (irp.complete .unsuccessful, d')
        | (.ok (), d') => (⟨.success, irp.length.toNat / S.ss * S.ss, irp.buffer⟩, d') := by
  have hsize : v.sectorSize.toNat = S.ss := congrArg UInt32.toNat h.sectorSize
  unfold processWrite
  simp only [hsize]
  split
  · rename_i hzero
    rw [if_pos (div_eq_zero_of hzero)]
  · split
    · rfl
    · split
      · rfl
      · generalize writeSectors d _ _ = reply
        obtain ⟨r, d'⟩ := reply
        cases r <;> rfl

theorem ss_pos_of_some (h : 0 < irp.length.toNat / S.ss) : 0 < S.ss := by
  rcases Nat.eq_zero_or_pos S.ss with hz | hpos
  · rw [hz, Nat.div_zero] at h
    exact absurd h (Nat.lt_irrefl 0)
  · exact hpos

/-- The guard of both requests, once they have a whole sector. -/
theorem not_runs_cases {fault : Nat → Bool} (h : ¬ Runs S irp d fault) (hn : ¬ irp.length.toNat / S.ss = 0)
    (hmap : ¬ (!irp.mapped || !irp.allocated) = true) :
    ¬ Reachable d fault (irp.byteOffset.toNat / S.ss) (irp.length.toNat / S.ss) := by
  simp only [Bool.or_eq_true, Bool.not_eq_true', not_or, Bool.not_eq_false] at hmap
  exact fun hreach => h ⟨Nat.pos_of_ne_zero hn, hmap.1, hmap.2, hreach⟩

/-- A read that runs: the sectors of the device, the coded ones decrypted. -/
theorem read_runs (h : Fits S v d) (hc : LawfulCipher S.ss cipher) (hkey : Keyed v burst cipher)
    (hr : Runs S irp d d.readFault) :
    (processRead v burst irp d).1.status = .success ∧
      (processRead v burst irp d).1.information = irp.length.toNat / S.ss * S.ss ∧
      ((processRead v burst irp d).1.buffer.take (irp.length.toNat / S.ss * S.ss)).length =
        irp.length.toNat / S.ss * S.ss ∧
      ∀ k, k < irp.length.toNat / S.ss →
        slice ((processRead v burst irp d).1.buffer.take (irp.length.toNat / S.ss * S.ss)) (k * S.ss) S.ss =
          if Coded S (irp.byteOffset.toNat / S.ss) k then
            cipher.decryptSector (UInt64.ofNat (irp.byteOffset.toNat / S.ss + k - S.offsetSector.toNat))
              (d.sector (irp.byteOffset.toNat / S.ss + k))
          else d.sector (irp.byteOffset.toNat / S.ss + k) := by
  have hs := ss_pos_of_some hr.some
  have hfirst := h.toNat_firstLba irp.byteOffset
  have hread : readSectors d (irp.byteOffset / v.sectorSize.toUInt64) (irp.length.toNat / S.ss * d.ss) =
      .ok (d.area (irp.byteOffset / v.sectorSize.toUInt64).toNat (irp.length.toNat / S.ss)) :=
    readSectors_of_reachable (by rw [h.ss]; exact hs) (by rw [hfirst]; exact hr.reachable)
  have hl : (d.area (irp.byteOffset.toNat / S.ss) (irp.length.toNat / S.ss)).length =
      irp.length.toNat / S.ss * S.ss := by
    rw [length_area, h.ss]
  obtain ⟨hlen, hslice⟩ := h.cryptFragment hs hkey decryptRead rfl hc.decryptArea irp.byteOffset hl
  have hn := hr.some
  rw [processRead_fst h, if_neg (by omega), if_neg (by simp [hr.mapped, hr.allocated]), hread, hfirst]
  dsimp only
  have htake : ∀ b : Bytes, b.length = irp.length.toNat / S.ss * S.ss →
      (copyAt irp.buffer 0 b).take (irp.length.toNat / S.ss * S.ss) = b := by
    intro b hb
    rw [← slice_zero, slice_copyAt_same (Nat.zero_le _) hb]
  rw [htake _ hlen]
  refine ⟨rfl, rfl, hlen, ?_⟩
  intro k hk
  have hsector : slice (d.area (irp.byteOffset.toNat / S.ss) (irp.length.toNat / S.ss)) (k * d.ss) d.ss =
      d.sector (irp.byteOffset.toNat / S.ss + k) := slice_area d hk
  rw [h.ss] at hsector
  rw [hslice k hk, hsector]

/-- A read that does not run reports no byte. -/
theorem read_stops (h : Fits S v d) (hr : ¬ Runs S irp d d.readFault) :
    (processRead v burst irp d).1.information = 0 := by
  rw [processRead_fst h]
  split
  · rfl
  · rename_i hn
    split
    · rfl
    · rename_i hmap
      have hs := ss_pos_of_some (Nat.pos_of_ne_zero hn)
      rw [readSectors_of_not_reachable (by rw [h.ss]; exact hs)
        (by rw [h.toNat_firstLba]; exact not_runs_cases hr hn hmap)]
      rfl

/-- A write that runs: the sectors of the buffer, the coded ones encrypted, and no other sector. -/
theorem write_runs (h : Fits S v d) (hc : LawfulCipher S.ss cipher) (hkey : Keyed v burst cipher)
    (hbuf : irp.buffer.length = irp.length.toNat) (hr : Runs S irp d d.writeFault) :
    (processWrite v burst irp d).1.status = .success ∧
      (processWrite v burst irp d).1.information = irp.length.toNat / S.ss * S.ss ∧
      Frame (fun lba => irp.byteOffset.toNat / S.ss ≤ lba ∧
        lba < irp.byteOffset.toNat / S.ss + irp.length.toNat / S.ss) d (processWrite v burst irp d).2.2.2 ∧
      ∀ k, k < irp.length.toNat / S.ss →
        (processWrite v burst irp d).2.2.2.sector (irp.byteOffset.toNat / S.ss + k) =
          if Coded S (irp.byteOffset.toNat / S.ss) k then
            cipher.encryptSector (UInt64.ofNat (irp.byteOffset.toNat / S.ss + k - S.offsetSector.toNat))
              (slice irp.buffer (k * S.ss) S.ss)
          else slice irp.buffer (k * S.ss) S.ss := by
  have hs := ss_pos_of_some hr.some
  have hfirst := h.toNat_firstLba irp.byteOffset
  have hl : (irp.buffer.take (irp.length.toNat / S.ss * S.ss)).length = irp.length.toNat / S.ss * S.ss := by
    rw [List.length_take, hbuf]
    exact Nat.min_eq_left (Nat.div_mul_le_self _ _)
  obtain ⟨hlen, hslice⟩ := h.cryptFragment hs hkey encryptWrite rfl hc.encryptArea irp.byteOffset hl
  have heq := processWrite_fst h burst irp
  have hn := hr.some
  rw [if_neg (by omega), if_neg (by simp [hr.mapped, hr.allocated])] at heq
  generalize (DataPath.cryptFragment encryptWrite v burst (irp.byteOffset / v.sectorSize.toUInt64)
    (irp.buffer.take (irp.length.toNat / S.ss * S.ss)) S.ss).1 = frag at heq hlen hslice
  rw [← h.ss] at hs hlen
  have hreach : Reachable d d.writeFault (irp.byteOffset / v.sectorSize.toUInt64).toNat (irp.length.toNat / d.ss) := by
    rw [hfirst, h.ss]
    exact hr.reachable
  obtain ⟨d', hwrite⟩ : ∃ d', writeSectors d (irp.byteOffset / v.sectorSize.toUInt64) frag = (.ok (), d') :=
    ⟨_, writeSectors_of_reachable hs hlen hreach⟩
  have hframe := writeSectors_frame d (irp.byteOffset / v.sectorSize.toUInt64) hlen
  have hsector := sector_writeSectors hlen hwrite
  rw [hwrite] at heq hframe
  rw [h.ss, hfirst] at hframe
  obtain ⟨hcompletion, hdevice⟩ := Prod.mk.inj heq
  rw [hcompletion, hdevice]
  refine ⟨rfl, rfl, hframe, ?_⟩
  intro k hk
  rw [hsector, h.ss, hfirst, if_pos (by omega), Nat.add_sub_cancel_left, hslice k hk, slice_take_sector hk]

/-- A write that does not run reports no byte and leaves the device. -/
theorem write_stops (h : Fits S v d) (hc : LawfulCipher S.ss cipher) (hkey : Keyed v burst cipher)
    (hbuf : irp.buffer.length = irp.length.toNat) (hr : ¬ Runs S irp d d.writeFault) :
    (processWrite v burst irp d).1.information = 0 ∧ (processWrite v burst irp d).2.2.2 = d := by
  have heq := processWrite_fst h burst irp
  split at heq
  · obtain ⟨hcompletion, hdevice⟩ := Prod.mk.inj heq
    exact ⟨congrArg Completion.information hcompletion, hdevice⟩
  · rename_i hn
    split at heq
    · obtain ⟨hcompletion, hdevice⟩ := Prod.mk.inj heq
      exact ⟨congrArg Completion.information hcompletion, hdevice⟩
    · rename_i hmap
      have hs := ss_pos_of_some (Nat.pos_of_ne_zero hn)
      have hl : (irp.buffer.take (irp.length.toNat / S.ss * S.ss)).length = irp.length.toNat / S.ss * S.ss := by
        rw [List.length_take, hbuf]
        exact Nat.min_eq_left (Nat.div_mul_le_self _ _)
      obtain ⟨hlen, -⟩ := h.cryptFragment hs hkey encryptWrite rfl hc.encryptArea irp.byteOffset hl
      rw [← h.ss] at hs
      rw [writeSectors_of_not_reachable hs (by rw [h.ss]; exact hlen)
        (by rw [h.toNat_firstLba]; exact not_runs_cases hr hn hmap)] at heq
      obtain ⟨hcompletion, hdevice⟩ := Prod.mk.inj heq
      exact ⟨congrArg Completion.information hcompletion, hdevice⟩

end

/-! ## When the first sector decides rightly -/

/-- Every sector is treated as what it is exactly when the request keeps to one side of each edge. -/
theorem coded_iff_encrypted (S : Shape) {first n : Nat} (hn : 0 < n) :
    (∀ k, k < n → (Coded S first k ↔ S.Encrypted (first + k))) ↔
      (S.offsetSector.toNat ≤ first ∨ first + n ≤ S.offsetSector.toNat ∨
        min S.dataSectors.toNat S.encryptedBoundary.toNat = 0) ∧
      (S.Encrypted first → first + n ≤ S.offsetSector.toNat + S.dataSectors.toNat ∨
        S.encryptedBoundary.toNat ≤ S.dataSectors.toNat) := by
  simp only [Coded, Shape.Encrypted]
  constructor
  · intro h
    constructor
    · by_contra hnot
      have := h (S.offsetSector.toNat - first) (by omega)
      omega
    · intro henc
      by_contra hnot
      have := h (S.offsetSector.toNat + S.dataSectors.toNat - first) (by omega)
      omega
  · rintro ⟨hfront, hpast⟩ k hk
    constructor
    · intro hcoded
      have := hpast (by omega)
      omega
    · intro henc
      omega

section

variable {S : Shape} {irp : Irp}

theorem not_runs_of_idle {d : Device} {fault : Nat → Bool} (hidle : Idle S irp) (htotal : d.totalSectors = S.totalSectors) :
    ¬ Runs S irp d fault := by
  rintro ⟨hsome, hmapped, hallocated, hreach⟩
  have hsectors : d.sectors = S.totalSectors.toNat := congrArg UInt64.toNat htotal
  have hend := hreach.1
  rcases hidle with h | h | h | h
  · omega
  · rw [hmapped] at h
    cases h
  · rw [hallocated] at h
    cases h
  · omega

section Sufficient

variable {σ : Type} {v : AttachedVolume σ} {burst : Option VolumeCipher} {cipher : VolumeCipher} {d : Device}

theorem readTransfers_of_exact (hfit : Fits S v d) (hc : LawfulCipher S.ss cipher) (hkey : Keyed v burst cipher)
    (hexact : Exact S irp) : ReadTransfers S cipher v burst irp d := by
  intro _
  by_cases hr : Runs S irp d d.readFault
  · obtain ⟨_, hinfo, hlen, hslice⟩ := read_runs hfit hc hkey hr
    have hs := ss_pos_of_some hr.some
    have hcoded := (coded_iff_encrypted S hr.some).mpr hexact.2
    have hstart : irp.byteOffset.toNat / S.ss * S.ss = irp.byteOffset.toNat := Nat.div_mul_cancel hexact.1
    rw [hinfo, ← hstart]
    refine eq_of_sectors hs hlen (length_load ..) ?_
    intro k hk
    rw [hslice k hk, slice_load_plainBytes hc hfit.ss hs _ hk, volumeSector]
    by_cases hk' : Coded S (irp.byteOffset.toNat / S.ss) k
    · rw [if_pos hk', if_pos ((hcoded k hk).mp hk')]
    · rw [if_neg hk', if_neg fun henc => hk' ((hcoded k hk).mpr henc)]
  · rw [read_stops hfit hr]
    rfl

theorem readTransfers_of_idle (hfit : Fits S v d) (hidle : Idle S irp) : ReadTransfers S cipher v burst irp d := by
  intro _
  rw [read_stops hfit (not_runs_of_idle hidle hfit.totalSectors)]
  rfl

/-- The plain view of a sector that a write has put in place. -/
theorem volumeSector_written (hc : LawfulCipher S.ss cipher) {d' : Device} {lba : Nat} {b : Bytes}
    (hb : b.length = S.ss) {coded : Prop} [Decidable coded] (hcoded : coded ↔ S.Encrypted lba)
    (hsector : d'.sector lba =
      if coded then cipher.encryptSector (UInt64.ofNat (lba - S.offsetSector.toNat)) b else b) :
    volumeSector cipher S d' lba = b := by
  rw [volumeSector, hsector]
  by_cases h : S.Encrypted lba
  · rw [if_pos h, if_pos (hcoded.mpr h)]
    exact hc.decrypt_encrypt _ _ hb
  · rw [if_neg h, if_neg fun hcode => h (hcoded.mp hcode)]

theorem writeTransfers_of_exact (hfit : Fits S v d) (hc : LawfulCipher S.ss cipher) (hkey : Keyed v burst cipher)
    (hbuf : irp.buffer.length = irp.length.toNat) (hexact : Exact S irp) : WriteTransfers S cipher v burst irp d := by
  intro _
  by_cases hr : Runs S irp d d.writeFault
  · obtain ⟨_, hinfo, hframe, hsector⟩ := write_runs hfit hc hkey hbuf hr
    have hs := ss_pos_of_some hr.some
    have hcoded := (coded_iff_encrypted S hr.some).mpr hexact.2
    have hstart : irp.byteOffset.toNat / S.ss * S.ss = irp.byteOffset.toNat := Nat.div_mul_cancel hexact.1
    have hle : irp.length.toNat / S.ss * S.ss ≤ irp.buffer.length := by
      rw [hbuf]
      exact Nat.div_mul_le_self _ _
    rw [hinfo]
    constructor
    · rw [← hstart]
      refine eq_of_sectors hs (length_load ..) (by rw [List.length_take]; omega) ?_
      intro k hk
      have hlen : (slice irp.buffer (k * S.ss) S.ss).length = S.ss := by
        apply length_slice_of_le
        have hkle : k * S.ss + S.ss ≤ irp.length.toNat / S.ss * S.ss := by
          rw [← Nat.succ_mul]
          exact Nat.mul_le_mul_right _ hk
        omega
      rw [slice_load_plainBytes hc (hframe.ss.trans hfit.ss) hs _ hk, slice_take_sector hk]
      exact volumeSector_written hc hlen (hcoded k hk) (hsector k hk)
    · intro a ha
      apply hframe.bytes
      rw [hfit.ss]
      rintro ⟨hlo, hhi⟩
      have hlo' := (Nat.le_div_iff_mul_le hs).mp hlo
      have hhi' := (Nat.div_lt_iff_lt_mul hs).mp hhi
      rw [Nat.add_mul] at hhi'
      omega
  · obtain ⟨hinfo, hdevice⟩ := write_stops hfit hc hkey hbuf hr
    rw [hinfo, hdevice]
    exact ⟨rfl, fun a _ => rfl⟩

theorem writeTransfers_of_idle (hfit : Fits S v d) (hc : LawfulCipher S.ss cipher) (hkey : Keyed v burst cipher)
    (hbuf : irp.buffer.length = irp.length.toNat) (hidle : Idle S irp) : WriteTransfers S cipher v burst irp d := by
  intro _
  obtain ⟨hinfo, hdevice⟩ := write_stops hfit hc hkey hbuf (not_runs_of_idle hidle hfit.totalSectors)
  rw [hinfo, hdevice]
  exact ⟨rfl, fun a _ => rfl⟩

end Sufficient

/-! ## A volume of every shape -/

section Necessary

/-- A volume of the shape whose cipher flips a bit of every byte. -/
def flipVolume (S : Shape) : AttachedVolume Unit where
  sectorSize := S.sectorSize
  ioConfig := .encrypted (some ⟨fun _ => some flipCipher⟩) S.offsetSector ⟨S.encryptedBoundary, S.dataSectors⟩
  encryption := ⟨S.offsetSector, ⟨S.encryptedBoundary, S.dataSectors⟩, .idle⟩
  offsetStore := ()
  encryptedBoundary := S.encryptedBoundary
  cipherCalls := 0

/-- A device of the shape with one byte set. -/
def markedDevice (S : Shape) (address : Nat) : Device :=
  { blank S.sectorSize S.totalSectors S.addressable with bytes := fun a => if a = address then 1 else 0 }

theorem flipVolume_keyed (S : Shape) : Keyed (flipVolume S) none flipCipher := ⟨⟨_, rfl, fun _ => rfl⟩, .inl rfl⟩

theorem flipVolume_fits (S : Shape) (address : Nat) : Fits S (flipVolume S) (markedDevice S address) :=
  ⟨rfl, rfl, rfl, rfl, rfl, rfl⟩

theorem runs_marked (hidle : ¬ Idle S irp) (address : Nat) : Runs S irp (markedDevice S address) fun _ => false := by
  rw [Idle, not_or, not_or, not_or] at hidle
  obtain ⟨hsome, hmapped, hallocated, hend⟩ := hidle
  have hsectors : (markedDevice S address).sectors = S.totalSectors.toNat := rfl
  exact ⟨Nat.pos_of_ne_zero hsome, by simpa using hmapped, by simpa using hallocated, by omega, fun _ _ => rfl⟩

theorem coded_zero (S : Shape) (first : Nat) : Coded S first 0 ↔ S.Encrypted first := by
  rw [Coded, Shape.Encrypted]
  omega

/-- In the sector of an address the plain bytes are those of the device or their flips. -/
theorem plainBytes_flip (hs : 0 < S.ss) {d : Device} (hss : d.ss = S.ss) (a : Nat) :
    plainBytes flipCipher S d a = if S.Encrypted (a / S.ss) then d.bytes a ^^^ 1 else d.bytes a := by
  have hmod := Nat.mod_lt a hs
  have hget : (d.sector (a / S.ss))[a % S.ss]? = some (d.bytes a) := by
    rw [Device.sector, getElem?_load, hss, if_pos hmod, Nat.mul_comm, Nat.div_add_mod]
  rw [plainBytes, volumeSector]
  split
  · rw [List.getD_eq_getElem?_getD]
    simp only [flipCipher, List.getElem?_map, hget, Option.map_some, Option.getD_some]
  · rw [List.getD_eq_getElem?_getD, hget, Option.getD_some]

theorem getElem?_zero_of_slice {b : Bytes} {ss : Nat} (hs : 0 < ss) : b[0]? = (slice b (0 * ss) ss)[0]? := by
  rw [getElem?_slice, if_pos hs, Nat.zero_mul]

theorem getElem?_zero_volumeSector {cipher : VolumeCipher} {d : Device} (hc : LawfulCipher S.ss cipher)
    (hss : d.ss = S.ss) (hs : 0 < S.ss) (lba : Nat) :
    (volumeSector cipher S d lba)[0]? = some (plainBytes cipher S d (lba * S.ss)) := by
  have hlen := length_volumeSector hc hss lba
  rw [plainBytes, Nat.mul_div_cancel _ hs, Nat.mul_mod_left, List.getD_eq_getElem _ _ (by omega),
    List.getElem?_eq_getElem (by omega)]

/-- Bytes of one sector with the same plain bytes are the same. -/
theorem bytes_eq_of_plainBytes_eq (hs : 0 < S.ss) {d : Device} (hss : d.ss = S.ss) {a b : Nat}
    (hsector : a / S.ss = b / S.ss) (h : plainBytes flipCipher S d a = plainBytes flipCipher S d b) :
    d.bytes a = d.bytes b := by
  rw [plainBytes_flip hs hss, plainBytes_flip hs hss, hsector] at h
  split at h
  · exact (UInt8.xor_left_inj 1).mp h
  · exact h

/-- Two ways to treat a sector differ on a sector that the cipher changes. -/
theorem iff_of_ite_flip_eq {p q : Prop} [Decidable p] [Decidable q] {b : Bytes} (hb : 0 < b.length) {rel : UInt64}
    (h : (if p then flipCipher.decryptSector rel b else b) = if q then flipCipher.decryptSector rel b else b) :
    p ↔ q := by
  have hne : flipCipher.decryptSector rel b ≠ b := flip_ne hb
  by_cases hp : p
  · by_cases hq : q
    · simp [hp, hq]
    · rw [if_pos hp, if_neg hq] at h
      exact absurd h hne
  · by_cases hq : q
    · rw [if_neg hp, if_pos hq] at h
      exact absurd h.symm hne
    · simp [hp, hq]

/-- A read returns the first byte of its first sector first, whatever the remainder of its offset. -/
theorem dvd_of_readTransfers (irp : Irp) (hidle : ¬ Idle S irp)
    (h : ReadTransfers S flipCipher (flipVolume S) none irp (markedDevice S (irp.byteOffset.toNat / S.ss * S.ss))) :
    S.ss ∣ irp.byteOffset.toNat := by
  have hfit := flipVolume_fits S (irp.byteOffset.toNat / S.ss * S.ss)
  have hr := runs_marked hidle (irp.byteOffset.toNat / S.ss * S.ss)
  have hs := ss_pos_of_some hr.some
  have hc := flipCipher_lawful S.ss
  obtain ⟨hok, hinfo, _, hslice⟩ := read_runs hfit hc (flipVolume_keyed S) hr
  have hbytes := h hok
  rw [hinfo] at hbytes
  -- the first byte of the buffer, from the sector and from the plain bytes
  have hfirst := hslice 0 hr.some
  rw [Nat.add_zero, ite_congr (propext (coded_zero S _)) (fun _ => rfl) fun _ => rfl, ← volumeSector] at hfirst
  have hhead := getElem?_zero_of_slice (b := (processRead (flipVolume S) none irp
    (markedDevice S (irp.byteOffset.toNat / S.ss * S.ss))).1.buffer.take (irp.length.toNat / S.ss * S.ss)) hs
  rw [hfirst, hbytes, getElem?_load, if_pos (Nat.mul_pos hr.some hs), Nat.add_zero,
    getElem?_zero_volumeSector hc hfit.ss hs] at hhead
  have hbyte := bytes_eq_of_plainBytes_eq hs hfit.ss (by rw [Nat.mul_div_cancel _ hs]) (Option.some.inj hhead)
  simp only [markedDevice, if_true] at hbyte
  split at hbyte
  · rename_i heq
    exact ⟨_, heq.trans (Nat.mul_comm _ _)⟩
  · cases hbyte

/-- A read from a sector boundary shows for each sector whether it was decrypted. -/
theorem coded_of_readTransfers (irp : Irp) (hidle : ¬ Idle S irp) (hdvd : S.ss ∣ irp.byteOffset.toNat) {address : Nat}
    (h : ReadTransfers S flipCipher (flipVolume S) none irp (markedDevice S address)) :
    ∀ k, k < irp.length.toNat / S.ss →
      (Coded S (irp.byteOffset.toNat / S.ss) k ↔ S.Encrypted (irp.byteOffset.toNat / S.ss + k)) := by
  have hfit := flipVolume_fits S address
  have hr := runs_marked hidle address
  have hs := ss_pos_of_some hr.some
  have hc := flipCipher_lawful S.ss
  obtain ⟨hok, hinfo, _, hslice⟩ := read_runs hfit hc (flipVolume_keyed S) hr
  have hbytes := h hok
  rw [hinfo, ← Nat.div_mul_cancel hdvd] at hbytes
  intro k hk
  have hsector := hslice k hk
  rw [hbytes, slice_load_plainBytes hc hfit.ss hs _ hk, volumeSector] at hsector
  refine (iff_of_ite_flip_eq ?_ hsector).symm
  rw [length_sector, hfit.ss]
  exact hs

/-- A write puts the byte of its buffer at the remainder of its offset where the first one belongs. -/
theorem dvd_of_writeTransfers (irp : Irp) (hidle : ¬ Idle S irp) {address : Nat}
    (hbuf : irp.buffer = 1 :: List.replicate (irp.length.toNat - 1) 0)
    (h : WriteTransfers S flipCipher (flipVolume S) none irp (markedDevice S address)) :
    S.ss ∣ irp.byteOffset.toNat := by
  have hfit := flipVolume_fits S address
  have hr := runs_marked hidle address
  have hs := ss_pos_of_some hr.some
  have hc := flipCipher_lawful S.ss
  have hle : S.ss ≤ irp.length.toNat := (Nat.div_pos_iff.mp hr.some).2
  have hlen : irp.buffer.length = irp.length.toNat := by
    rw [hbuf, List.length_cons, List.length_replicate]
    omega
  obtain ⟨hok, hinfo, _, hsector⟩ := write_runs hfit hc (flipVolume_keyed S) hlen hr
  have hbytes := (h hok).1
  rw [hinfo] at hbytes
  have hwritten := volumeSector_written hc (length_slice_of_le (by omega)) (coded_zero S _) (hsector 0 hr.some)
  rw [Nat.add_zero] at hwritten
  -- the byte at the offset of the request, from the buffer and from its sector
  have hhead := congrArg (fun b : Bytes => b[0]?) hbytes
  have hpos := Nat.mul_pos hr.some hs
  simp only [getElem?_load, hpos, if_true, List.getElem?_take, Nat.add_zero] at hhead
  have hmod := Nat.mod_lt irp.byteOffset.toNat hs
  rw [plainBytes, hwritten, List.getD_eq_getElem?_getD, getElem?_slice, if_pos hmod, Nat.zero_mul, Nat.zero_add, hbuf] at hhead
  apply Nat.dvd_of_mod_eq_zero
  by_contra hne
  obtain ⟨r, hr'⟩ := Nat.exists_eq_succ_of_ne_zero hne
  rw [hr', List.getElem?_cons_succ, List.getElem?_replicate, if_pos (by omega)] at hhead
  cases hhead

/-- A write from a sector boundary shows for each sector whether it was encrypted. -/
theorem coded_of_writeTransfers (irp : Irp) (hidle : ¬ Idle S irp) (hdvd : S.ss ∣ irp.byteOffset.toNat) {address : Nat}
    (hlen : irp.buffer.length = irp.length.toNat)
    (h : WriteTransfers S flipCipher (flipVolume S) none irp (markedDevice S address)) :
    ∀ k, k < irp.length.toNat / S.ss →
      (Coded S (irp.byteOffset.toNat / S.ss) k ↔ S.Encrypted (irp.byteOffset.toNat / S.ss + k)) := by
  have hfit := flipVolume_fits S address
  have hr := runs_marked hidle address
  have hs := ss_pos_of_some hr.some
  have hc := flipCipher_lawful S.ss
  obtain ⟨hok, hinfo, hframe, hsector⟩ := write_runs hfit hc (flipVolume_keyed S) hlen hr
  have hbytes := (h hok).1
  rw [hinfo, ← Nat.div_mul_cancel hdvd] at hbytes
  intro k hk
  have hplain := slice_load_plainBytes hc (hframe.ss.trans hfit.ss) hs (irp.byteOffset.toNat / S.ss) hk
  rw [hbytes, slice_take_sector hk, volumeSector, hsector k hk] at hplain
  generalize hb : slice irp.buffer (k * S.ss) S.ss = b at hplain
  have hle : irp.length.toNat / S.ss * S.ss ≤ irp.length.toNat := Nat.div_mul_le_self _ _
  have hblen : b.length = S.ss := by
    rw [← hb]
    apply length_slice_of_le
    have hkle : k * S.ss + S.ss ≤ irp.length.toNat / S.ss * S.ss := by
      rw [← Nat.succ_mul]
      exact Nat.mul_le_mul_right _ hk
    omega
  have hne : b.map (· ^^^ 1) ≠ b := flip_ne (by omega)
  by_cases hcoded : Coded S (irp.byteOffset.toNat / S.ss) k
  · by_cases henc : S.Encrypted (irp.byteOffset.toNat / S.ss + k)
    · exact iff_of_true hcoded henc
    · rw [if_neg henc, if_pos hcoded] at hplain
      exact absurd hplain.symm hne
  · by_cases henc : S.Encrypted (irp.byteOffset.toNat / S.ss + k)
    · rw [if_pos henc, if_neg hcoded] at hplain
      exact absurd hplain.symm hne
    · exact iff_of_false hcoded henc

end Necessary

/-! ## Both requests -/

theorem transfers_read_iff (S : Shape) (irp : Irp) : Transfers S irp ReadTransfers ↔ Idle S irp ∨ Exact S irp := by
  constructor
  · intro h
    by_cases hidle : Idle S irp
    · exact Or.inl hidle
    · right
      have hread (address : Nat) := h Unit (flipVolume S) none flipCipher (markedDevice S address)
        (List.replicate irp.length.toNat 0) (flipVolume_fits S address) (flipCipher_lawful S.ss) (flipVolume_keyed S)
        (List.length_replicate ..)
      have hdvd := dvd_of_readTransfers { irp with buffer := List.replicate irp.length.toNat 0 } hidle (hread _)
      have hcoded := coded_of_readTransfers { irp with buffer := List.replicate irp.length.toNat 0 } hidle hdvd
        (hread 0)
      rw [Idle, not_or] at hidle
      exact ⟨hdvd, (coded_iff_encrypted S (Nat.pos_of_ne_zero hidle.1)).mp hcoded⟩
  · rintro (hidle | hexact) σ v burst cipher d buffer hfit hc hkey hbuf
    · exact readTransfers_of_idle hfit hidle
    · exact readTransfers_of_exact hfit hc hkey hexact

theorem transfers_write_iff (S : Shape) (irp : Irp) : Transfers S irp WriteTransfers ↔ Idle S irp ∨ Exact S irp := by
  constructor
  · intro h
    by_cases hidle : Idle S irp
    · exact Or.inl hidle
    · right
      have hsome : ¬ irp.length.toNat / S.ss = 0 := fun hzero => hidle (Or.inl hzero)
      have hlen : (1 :: List.replicate (irp.length.toNat - 1) 0 : Bytes).length = irp.length.toNat := by
        have : irp.length.toNat ≠ 0 := fun hzero => hsome (div_eq_zero_of (Or.inr hzero))
        rw [List.length_cons, List.length_replicate]
        omega
      have hwrite := h Unit (flipVolume S) none flipCipher (markedDevice S 0)
        (1 :: List.replicate (irp.length.toNat - 1) 0) (flipVolume_fits S 0) (flipCipher_lawful S.ss)
        (flipVolume_keyed S) hlen
      have hdvd := dvd_of_writeTransfers
        { irp with buffer := 1 :: List.replicate (irp.length.toNat - 1) 0 } hidle rfl hwrite
      have hcoded := coded_of_writeTransfers
        { irp with buffer := 1 :: List.replicate (irp.length.toNat - 1) 0 } hidle hdvd hlen hwrite
      exact ⟨hdvd, (coded_iff_encrypted S (Nat.pos_of_ne_zero hsome)).mp hcoded⟩
  · rintro (hidle | hexact) σ v burst cipher d buffer hfit hc hkey hbuf
    · exact writeTransfers_of_idle hfit hc hkey hbuf hidle
    · exact writeTransfers_of_exact hfit hc hkey hbuf hexact

/-- A success means that the requested bytes were transferred exactly for requests that transfer nothing or start
at a sector and do not cross an edge at which the first sector decides wrongly. -/
theorem bytes_transferred_iff (S : Shape) (irp : Irp) :
    (Transfers S irp ReadTransfers ↔ Idle S irp ∨ Exact S irp) ∧
      (Transfers S irp WriteTransfers ↔ Idle S irp ∨ Exact S irp) :=
  ⟨transfers_read_iff S irp, transfers_write_iff S irp⟩

/-- Eight encrypted sectors of 512 bytes on a device of sixteen. -/
def eightSectors : Shape := ⟨512, 16, 0, 8, 8, by decide⟩

/-- A request for 512 bytes from the middle of the first sector on. -/
def middleRequest : Irp := ⟨256, 512, 1 :: List.replicate 511 0, true, true⟩

theorem middleRequest_not_idle : ¬ Idle eightSectors middleRequest := by
  rw [Idle]
  decide

/-- The read reports 512 bytes and returns those from 0 on; the write reports 512 bytes and puts them at 0. -/
theorem middle_request_misplaced :
    Fits eightSectors (flipVolume eightSectors) (markedDevice eightSectors 0) ∧
      LawfulCipher eightSectors.ss flipCipher ∧ Keyed (flipVolume eightSectors) none flipCipher ∧
      (processRead (flipVolume eightSectors) none middleRequest (markedDevice eightSectors 0)).1.status = .success ∧
      (processRead (flipVolume eightSectors) none middleRequest (markedDevice eightSectors 0)).1.information = 512 ∧
      ¬ ReadTransfers eightSectors flipCipher (flipVolume eightSectors) none middleRequest
        (markedDevice eightSectors 0) ∧
      ¬ WriteTransfers eightSectors flipCipher (flipVolume eightSectors) none middleRequest
        (markedDevice eightSectors 0) := by
  have hfit := flipVolume_fits eightSectors 0
  have hc := flipCipher_lawful eightSectors.ss
  have hkey := flipVolume_keyed eightSectors
  have hnot : ¬ eightSectors.ss ∣ middleRequest.byteOffset.toNat := by decide
  obtain ⟨hok, hinfo, -⟩ := read_runs hfit hc hkey (runs_marked middleRequest_not_idle 0)
  refine ⟨hfit, hc, hkey, hok, hinfo, ?_, ?_⟩
  · intro h
    exact hnot (dvd_of_readTransfers _ middleRequest_not_idle h)
  · intro h
    exact hnot (dvd_of_writeTransfers _ middleRequest_not_idle rfl h)

end

end ByteTransfer
