import VolumeCrypt.CreationRecord
import VolumeCrypt.HealthyRuns

/-!
# Encryption in place

The app creates the metadata of a partition that already holds data, and the driver attaches the
volume with the same key. From then on loader and driver serve what was on the partition before,
whichever part of it the sweep has reached.
-/
namespace InPlace

open ByteString ByteMemory VckTypes SectorIo CipherTraits JvckLayout JvckStore JvckReplicas VolumeSweep BootCycles
  SdkMetadata
open Transparency (Env Mounted PlainVolume attach)
open JvckRuns (Synced toNat_offsetSector toNat_dataSectors twoFooters twoFooters_of)
open SweepEngine (plainSector)
open FailClosed (Firmware InPlaceCipher diskFirmware)
open SdkEnsure (WriteLog writeEach writeSectorAt newHeader newSector hasJvckMetadata ensureJvckMetadata ensureChecks)
open PrepareLayout (replicaLayout)
open CreationRecord (CountsFit)
open HealthyRuns (ProperRun run_proper)
open JvckMetadata (Primitives)

/-! ## Preparing a data volume -/

/-- `buildDataVolumeMetadataBlock`; metadata that exists is left alone, and the block is empty. -/
def buildDataVolumeMetadataBlock (P : Primitives) (env : SdkEnsure.Env) (d : Device) (vmk : Bytes)
    (o : JvckMetadataOptions) : Except String Bytes :=
  match hasJvckMetadata P env.handle d (d.totalSectors * d.sectorSize.toUInt64) d.sectorSize with
  | .error e => .error ("failed to probe existing metadata: " ++ e)
  | .ok true => .ok []
  | .ok false =>
    match env.entropy with
    | .error e => .error ("failed to generate key material: " ++ e)
    | .ok (fvek1, fvek2, volumeID, salt) =>
      .ok (encodeMetadataBlock P (newHeader d.sectorSize o volumeID) fvek1 fvek2 0 salt vmk)

/-- `for lba in &replica_lbas { lo.write_sectors(*lba, &sector_buf)? }`. -/
def writeSectorBuf (sectorBuf : Bytes) (d : Device) : List UInt64 → VckResult Unit × Device
  | [] => (.ok (), d)
  | lba :: lbas =>
    match writeSectors d lba sectorBuf with
    | (.error e, d) => (.error e, d)
    | (.ok (), d) => writeSectorBuf sectorBuf d lbas

/-- What PREPARE writes below a filter of AddDevice. -/
def prepareWrites (block : Bytes) (o : JvckMetadataOptions) (d : Device) : VckResult Unit × Device :=
  if block = [] then (.ok (), d)
  else if block.length < JvckMetadata.metadataBlockSize then (.error (.invalidData "metadata_block too short"), d)
  else
    let copyLen := min JvckMetadata.metadataBlockSize d.sectorSize.toNat
    let sectorBuf := copyAt (List.replicate d.sectorSize.toNat 0) 0 (slice block 0 copyLen)
    writeSectorBuf sectorBuf d (replicaLayout d.sectorSize d.totalSectors o).replicaLbas

/-- Metadata comes to a partition from the SDK itself, or in the request of the app, which asks for a footer. -/
inductive Creates (P : Primitives) (env : SdkEnsure.Env) (vmk : Bytes) (o : JvckMetadataOptions) (d d₁ : Device) :
    Prop where
  | ensure (log : WriteLog) (h : ensureJvckMetadata P env d vmk o = (.ok true, d₁, log))
  | prepare (block : Bytes) (hbuild : buildDataVolumeMetadataBlock P env d vmk o = .ok block) (hnew : block ≠ [])
      (hfooter : o.useFooter ≠ 0) (hwrites : prepareWrites block o d = (.ok (), d₁))

/-! ## The replicas -/

section Replicas

variable {sector : Bytes} {d d₁ : Device} {lba : UInt64} {lbas : List UInt64} {log : WriteLog}

/-- A write at the byte offset of a sector is a write of this sector. -/
theorem writeSectorAt_sector (hs : 0 < d.ss) (hlen : sector.length = d.ss) (hl : lba.toNat < d.sectors)
    (hw : writeSectorAt d (lba * d.sectorSize.toUInt64) sector = (.ok (), d₁)) :
    Frame (· = lba.toNat) d d₁ ∧ d₁.sector lba.toNat = sector := by
  have hss : d.sectorSize.toUInt64.toNat = d.ss := UInt32.toNat_toUInt64 _
  have haddr : d.sectors * d.ss < 2 ^ 64 := d.addressable
  have hend : lba.toNat * d.ss ≤ d.sectors * d.ss := Nat.mul_le_mul_right _ hl.le
  have hoff : (lba * d.sectorSize.toUInt64).toNat = lba.toNat * d.ss := by
    rw [toNat_mul_of_lt (by rw [hss]; omega), hss]
  rcases SdkEnsure.writeSectorAt_cases d (lba * d.sectorSize.toUInt64) sector with h | h
  · rw [h, hoff] at hw
    obtain rfl := (Prod.mk.inj hw).2
    refine ⟨⟨rfl, rfl, rfl, rfl, rfl, ?_⟩, load_save_same _ hlen⟩
    intro a ha
    apply save_apply_of_not_mem
    rw [hlen, ← Nat.succ_mul]
    rcases Nat.lt_or_gt_of_ne ha with h | h
    · exact .inl ((Nat.div_lt_iff_lt_mul hs).mp h)
    · exact .inr ((Nat.le_div_iff_mul_le hs).mp h)
  · rw [h] at hw
    cases (Prod.mk.inj hw).1

/-- The loop leaves the sector in every place of its list and touches no other. -/
theorem writeEach_spec (hs : 0 < d.ss) (hlen : sector.length = d.ss) (hl : ∀ lba ∈ lbas, lba.toNat < d.sectors)
    (hw : writeEach sector d lbas = (.ok (), d₁, log)) :
    Frame (fun l => ∃ lba ∈ lbas, l = lba.toNat) d d₁ ∧ ∀ lba ∈ lbas, d₁.sector lba.toNat = sector := by
  induction lbas generalizing d log with
  | nil =>
    obtain rfl := (Prod.mk.inj (Prod.mk.inj hw).2).1
    exact ⟨.refl _ _, nofun⟩
  | cons l lbas ih =>
    rw [writeEach] at hw
    generalize hwrite : writeSectorAt d (l * d.sectorSize.toUInt64) sector = w at hw
    obtain ⟨r, d₂⟩ := w
    cases r with
    | error e => cases (Prod.mk.inj hw).1
    | ok u =>
      obtain ⟨hone, hself⟩ := writeSectorAt_sector hs hlen (hl l (by simp)) hwrite
      simp only at hw
      generalize hrest : writeEach sector d₂ lbas = rest at hw
      obtain ⟨r, d₃, log'⟩ := rest
      obtain ⟨rfl, h₂⟩ := Prod.mk.inj hw
      obtain ⟨rfl, -⟩ := Prod.mk.inj h₂
      have hl₂ : ∀ lba ∈ lbas, lba.toNat < d₂.sectors := by
        intro lba hmem
        rw [hone.sectors]
        exact hl lba (by simp [hmem])
      obtain ⟨hframe, hall⟩ := ih (by rw [hone.ss]; exact hs) (by rw [hone.ss]; exact hlen) hl₂ hrest
      refine ⟨?_, ?_⟩
      · refine (hone.mono ?_).trans (hframe.mono ?_)
        · rintro i rfl
          exact ⟨l, by simp, rfl⟩
        · rintro i ⟨lba, hmem, rfl⟩
          exact ⟨lba, by simp [hmem], rfl⟩
      · intro lba hmem
        by_cases hagain : ∃ lba' ∈ lbas, lba.toNat = lba'.toNat
        · obtain ⟨lba', hmem', heq⟩ := hagain
          rw [heq]
          exact hall lba' hmem'
        · have hfirst : lba = l := by
            rcases List.mem_cons.mp hmem with h | h
            · exact h
            · exact absurd ⟨lba, h, rfl⟩ hagain
          rw [hframe.sector_eq hagain, hfirst]
          exact hself

end Replicas

section Created

variable {P : Primitives} {env : SdkEnsure.Env} {d d₁ : Device} {vmk : Bytes} {o : JvckMetadataOptions} {L : Layout}
  {log : WriteLog} {fvek1 fvek2 : Fixed 32} {volumeID salt : Fixed 16} {block : Bytes}

/-- Every replica has a new block, nothing else has changed, and the last sector had no metadata in it. -/
structure Created (P : Primitives) (vmk : Bytes) (o : JvckMetadataOptions) (L : Layout) (fvek1 fvek2 : Fixed 32)
    (volumeID salt : Fixed 16) (d d₁ : Device) : Prop where
  replicas : 0 < L.count
  frame : Frame L.IsMeta d d₁
  blocks : ∀ i, i < L.count → (blockAt d₁ (L.metaLba i)).toList =
    JvckMetadata.encode P (newHeader d.sectorSize o volumeID) ⟨fvek1, fvek2⟩ 0 .encrypt salt vmk
  unmarked : verifyMetadataCRC P (d.sector (d.sectors - 1)) = false

/-- Sectors of the machine's list are replicas of the layout. -/
theorem isMeta_of_mem (hL : L.Of d.sectorSize d.totalSectors o) {l : Nat}
    (h : ∃ lba ∈ metadataSectorLbas d.totalSectors (replicaSectors o.metadataSize d.sectorSize) o.useHeader o.useFooter,
      l = lba.toNat) : L.IsMeta l := by
  rw [hL.metadataSectorLbas_eq] at h
  obtain ⟨lba, hmem, rfl⟩ := h
  obtain ⟨i, hi, rfl⟩ := List.mem_map.mp hmem
  exact ⟨i, List.mem_range.mp hi, hL.toNat_metaLba (List.mem_range.mp hi)⟩

theorem metaLba_mem (hL : L.Of d.sectorSize d.totalSectors o) {i : Nat} (hi : i < L.count) :
    ∃ lba ∈ metadataSectorLbas d.totalSectors (replicaSectors o.metadataSize d.sectorSize) o.useHeader o.useFooter,
      lba.toNat = L.metaLba i := by
  rw [hL.metadataSectorLbas_eq]
  exact ⟨_, List.mem_map.mpr ⟨i, List.mem_range.mpr hi, rfl⟩, hL.toNat_metaLba hi⟩

/-- A probe that was answered has read the last sector. -/
theorem last_of_readSectorAt {last : Bytes} (hn : 0 < d.sectors)
    (h : SdkEnsure.readSectorAt d (SdkEnsure.lastSectorOffset d.totalSectors d.sectorSize) d.sectorSize.toNat =
      .ok last) : last = d.sector (d.sectors - 1) := by
  rw [SdkEnsure.readSectorAt, SdkEnsure.toNat_lastSectorOffset hn] at h
  split at h
  · exact (Except.ok.inj h).symm
  · cases h

theorem created_of_ensure (hL : L.Of d.sectorSize d.totalSectors o)
    (hent : env.entropy = .ok (fvek1, fvek2, volumeID, salt))
    (h : ensureJvckMetadata P env d vmk o = (.ok true, d₁, log)) :
    Created P vmk o L fvek1 fvek2 volumeID salt d d₁ := by
  rcases SdkEnsure.ensure_cases P env d vmk o with ⟨-, e, he⟩ | ⟨-, -, -, -, he⟩ |
    ⟨last, k₁, k₂, vid, s, hchk, hread, hv, hent', he⟩
  · rw [he] at h
    cases (Prod.mk.inj h).1
  · rw [he] at h
    cases (Prod.mk.inj h).1
  · obtain ⟨rfl, rfl, rfl, rfl⟩ : _ ∧ _ ∧ _ ∧ _ := by simpa using Except.ok.inj (hent.symm.trans hent')
    obtain ⟨hs, hn⟩ := SdkEnsure.last_of_ensureChecks hchk
    obtain ⟨-, hval, -⟩ := SdkEnsure.ensureChecks_ok_iff.mp hchk
    obtain rfl := last_of_readSectorAt hn hread
    have hw : writeEach (newSector P d.sectorSize vmk o fvek1 fvek2 volumeID salt) d (metadataSectorLbas d.totalSectors
        (replicaSectors o.metadataSize d.sectorSize) o.useHeader o.useFooter) = (.ok (), d₁, log) := by
      rw [he] at h
      generalize writeEach _ d _ = w at h
      obtain ⟨r, rest⟩ := w
      obtain ⟨h₁, rfl⟩ := Prod.mk.inj h
      cases r with
      | error e => cases h₁
      | ok u => rfl
    have hlen := SdkEnsure.length_newSector P hs vmk o fvek1 fvek2 volumeID salt
    obtain ⟨hframe, hall⟩ := writeEach_spec (by omega) hlen (fun lba hmem => hL.lt_of_mem_metadataSectorLbas hmem) hw
    refine ⟨?_, hframe.mono fun _ hl => isMeta_of_mem hL hl, ?_, hv⟩
    · have hne := CreationRecord.replicaLbas_ne_nil hval d
      rw [CreationRecord.replicaLbas, hL.metadataSectorLbas_eq] at hne
      simpa [Nat.pos_iff_ne_zero] using hne
    · intro i hi
      obtain ⟨lba, hmem, hlba⟩ := metaLba_mem hL hi
      rw [← hlba, blockAt, hall lba hmem, SdkEnsure.slice_newSector, Fixed.toList_ofBytes (JvckMetadata.length_encode ..)]

/-- The SDK looks for metadata in the last sector. -/
theorem probe_of_hasJvckMetadata {handle : Except String Unit} {found : Bool} (hs : 512 ≤ d.ss) (hn : 0 < d.sectors)
    (h : hasJvckMetadata P handle d (d.totalSectors * d.sectorSize.toUInt64) d.sectorSize = .ok found) :
    verifyMetadataCRC P (d.sector (d.sectors - 1)) = found := by
  have hss : d.sectorSize.toUInt64.toNat = d.ss := UInt32.toNat_toUInt64 _
  have hlen : d.totalSectors * d.sectorSize.toUInt64 / d.sectorSize.toUInt64 = d.totalSectors := by
    apply UInt64.toNat_inj.mp
    rw [UInt64.toNat_div, toNat_mul_of_lt (by rw [hss]; exact d.addressable), hss]
    exact Nat.mul_div_cancel _ (by omega)
  have hsmall : ¬ d.sectorSize.toNat < metadataBlockSize := Nat.not_lt.mpr hs
  unfold hasJvckMetadata at h
  rw [if_neg hsmall, hlen] at h
  split at h
  · cases h
  split at h
  · cases h
  · rename_i last hread
    rw [← last_of_readSectorAt hn hread]
    exact Except.ok.inj h

/-- A block that is not empty is a new one, for a partition without metadata. -/
theorem probe_of_build (hs : 512 ≤ d.ss) (hn : 0 < d.sectors)
    (hbuild : buildDataVolumeMetadataBlock P env d vmk o = .ok block) (hnew : block ≠ [])
    (hent : env.entropy = .ok (fvek1, fvek2, volumeID, salt)) :
    verifyMetadataCRC P (d.sector (d.sectors - 1)) = false ∧
      block = JvckMetadata.encode P (newHeader d.sectorSize o volumeID) ⟨fvek1, fvek2⟩ 0 .encrypt salt vmk := by
  rw [buildDataVolumeMetadataBlock] at hbuild
  split at hbuild
  · cases hbuild
  · exact absurd (Except.ok.inj hbuild).symm hnew
  · rename_i hprobe
    rw [hent] at hbuild
    refine ⟨probe_of_hasJvckMetadata hs hn hprobe, (Except.ok.inj hbuild).symm.trans ?_⟩
    exact encodeMetadataBlock_eq P (newHeader d.sectorSize o volumeID) ⟨fvek1, fvek2⟩ 0 salt vmk

/-- The loop of PREPARE is that of the store. -/
theorem writeSectorBuf_eq (sectorSize : UInt32) (b : Fixed 512) (d : Device) (lbas : List UInt64) :
    writeSectorBuf (copyAt (List.replicate sectorSize.toNat 0) 0 b.toList) d lbas =
      JvckMetadataStore.writeBlocks sectorSize b d lbas := by
  induction lbas generalizing d with
  | nil => rfl
  | cons lba lbas ih =>
    rw [writeSectorBuf, JvckMetadataStore.writeBlocks, writeBlock]
    generalize writeSectors d lba _ = w
    obtain ⟨r, d'⟩ := w
    cases r with
    | error e => rfl
    | ok u => exact ih d'

theorem created_of_prepare (hL : L.Of d.sectorSize d.totalSectors o)
    (hent : env.entropy = .ok (fvek1, fvek2, volumeID, salt))
    (hbuild : buildDataVolumeMetadataBlock P env d vmk o = .ok block) (hnew : block ≠ []) (hfooter : o.useFooter ≠ 0)
    (hwrites : prepareWrites block o d = (.ok (), d₁)) : Created P vmk o L fvek1 fvek2 volumeID salt d d₁ := by
  have hs : 512 ≤ d.ss := hL.sectorSize
  have hn : 0 < d.sectors := Nat.lt_of_le_of_lt (Nat.zero_le _) (L.fits.trans_eq hL.total)
  obtain ⟨hnone, hblock⟩ := probe_of_build hs hn hbuild hnew hent
  have hlen : block.length = 512 := by
    rw [hblock]
    exact JvckMetadata.length_encode ..
  have hlong : ¬ block.length < JvckMetadata.metadataBlockSize := Nat.not_lt.mpr hlen.ge
  have hmin : min JvckMetadata.metadataBlockSize d.sectorSize.toNat = 512 := Nat.min_eq_left hs
  have hwhole : slice block 0 (min JvckMetadata.metadataBlockSize d.sectorSize.toNat) = block := by
    rw [hmin]
    exact List.take_of_length_le hlen.le
  rw [prepareWrites, if_neg hnew, if_neg hlong] at hwrites
  simp only [hwhole, PrepareLayout.replicaLbas_eq] at hwrites
  obtain ⟨b, rfl⟩ : ∃ b : Fixed 512, block = b.toList := ⟨⟨block, hlen⟩, rfl⟩
  rw [writeSectorBuf_eq] at hwrites
  obtain ⟨hframe, hall⟩ := writeBlocks_spec hs b (metadataSectorLbas d.totalSectors
    (replicaSectors o.metadataSize d.sectorSize) o.useHeader o.useFooter)
  rw [hwrites] at hframe hall
  refine ⟨?_, hframe.mono fun _ hl => isMeta_of_mem hL hl, ?_, hnone⟩
  · have hpos : 0 < o.useFooter.toNat := Nat.pos_of_ne_zero fun h => hfooter (UInt32.toNat_inj.mp h)
    rw [Layout.count, hL.footers]
    omega
  · intro i hi
    obtain ⟨lba, hmem, hlba⟩ := metaLba_mem hL hi
    rw [← hlba, hall rfl lba hmem]
    exact hblock

theorem Creates.created (h : Creates P env vmk o d d₁) (hL : L.Of d.sectorSize d.totalSectors o)
    (hent : env.entropy = .ok (fvek1, fvek2, volumeID, salt)) : Created P vmk o L fvek1 fvek2 volumeID salt d d₁ := by
  cases h with
  | ensure log h => exact created_of_ensure hL hent h
  | prepare block hbuild hnew hfooter hwrites => exact created_of_prepare hL hent hbuild hnew hfooter hwrites

end Created

/-! ## The store behind them -/

section Store

variable {P : Primitives} {d d₁ : Device} {vmk : Bytes} {o : JvckMetadataOptions} {L : Layout}
  {fvek1 fvek2 : Fixed 32} {volumeID salt : Fixed 16}

/-- The store whose fields the new replicas seal. -/
def createdStore (P : Primitives) (d : Device) (vmk : Bytes) (o : JvckMetadataOptions) (L : Layout)
    (fvek1 fvek2 : Fixed 32) (volumeID : Fixed 16) : JvckMetadataStore where
  options := o
  geometry := L.geometry d.sectorSize
  volumeSectors := d.totalSectors
  vmk := vmk
  header := newHeader d.sectorSize o volumeID
  secrets := ⟨fvek1, fvek2⟩
  offset := 0
  state := VolumeState.encrypt.asU16
  codec := jvckCbcCodec P

/-- The new replicas are in line with the store. -/
theorem Created.synced (h : Created P vmk o L fvek1 fvek2 volumeID salt d d₁)
    (hL : L.Of d.sectorSize d.totalSectors o) (hfit : CountsFit o) :
    Synced L (createdStore P d vmk o L fvek1 fvek2 volumeID) d₁ := by
  have hon : On (createdStore P d vmk o L fvek1 fvek2 volumeID).toPlacement L d := ⟨hL, rfl, rfl⟩
  refine ⟨hon.frame h.frame, (CreationRecord.optionsOf_newHeader d.sectorSize volumeID hfit).symm, ?_⟩
  intro i hi
  exact ⟨salt, congrArg Except.ok (Subtype.ext (h.blocks i hi).symm)⟩

/-- The last sector is a replica, or still what the SDK probed. -/
theorem Created.last (h : Created P vmk o L fvek1 fvek2 volumeID salt d d₁)
    (hL : L.Of d.sectorSize d.totalSectors o) :
    0 < L.footers ∨ JvckMetadata.verifyCrc P (blockAt d₁ (d₁.sectors - 1)).toList ≠ .ok () := by
  have hs : 512 ≤ d.ss := hL.sectorSize
  rcases Nat.eq_zero_or_pos L.footers with hf | hf
  · right
    have hlast : ¬ L.IsMeta (d.sectors - 1) := by
      rintro ⟨i, hi, he⟩
      have htotal : L.total = d.sectors := hL.total
      have hdata := L.last_inData hf
      rw [htotal, he] at hdata
      exact L.metaLba_not_data hi hdata
    have hlen : (d.sector (d.sectors - 1)).length = d.ss := length_sector ..
    rw [h.frame.sectors, blockAt_frame h.frame hlast, blockAt, Fixed.toList_ofBytes (length_slice_of_le (by omega)),
      ne_eq, ← SdkEnsure.verifyMetadataCRC_slice (by omega), h.unmarked]
    exact Bool.false_ne_true
  · exact .inl hf

end Store

/-! ## The attached volume -/

section Attached

variable {F : Firmware} {E : Env} {env : SdkEnsure.Env} {d d₁ : Device} {o : JvckMetadataOptions} {L : Layout}
  {fvek1 fvek2 : Fixed 32} {volumeID salt : Fixed 16} {cipher : VolumeCipher}
  {reader : JvckMetadataReader}

/-- The volume at boundary 0. -/
def createdVolume (E : Env) (d : Device) (o : JvckMetadataOptions) (L : Layout) (fvek1 fvek2 : Fixed 32)
    (volumeID : Fixed 16) : AttachedVolume JvckMetadataStore where
  sectorSize := d.sectorSize
  ioConfig := .encrypted (some (E.supplierOf ⟨fvek1, fvek2⟩)) (L.geometry d.sectorSize).offsetSector
    ⟨0, (L.geometry d.sectorSize).dataSectors⟩
  encryption := .new (L.geometry d.sectorSize).offsetSector ⟨0, (L.geometry d.sectorSize).dataSectors⟩
  offsetStore := createdStore E.primitives d E.vmk o L fvek1 fvek2 volumeID
  encryptedBoundary := 0
  cipherCalls := 0

/-- What the data region holds, sector by sector. -/
def dataOf (g : Geometry) (d : Device) : PlainVolume := ⟨fun rel => d.sector (g.offsetSector.toNat + rel), []⟩

theorem Created.mounted (h : Created E.primitives E.vmk o L fvek1 fvek2 volumeID salt d d₁)
    (hlaw : LawfulCipher d.ss cipher) (hL : L.Of d.sectorSize d.totalSectors o) (hfit : CountsFit o)
    (hsup : ∀ n, (E.supplierOf ⟨fvek1, fvek2⟩).getCipher n = some cipher) :
    Mounted E L (L.geometry d.sectorSize) cipher ⟨createdVolume E d o L fvek1 fvek2 volumeID, d₁, none, []⟩
      (dataOf (L.geometry d.sectorSize) d) := by
  have hsync := h.synced hL hfit
  have hframe := h.frame
  have hoffset := toNat_offsetSector hsync.on
  have htotal := toNat_dataSectors hsync.on
  refine ⟨?_, h.replicas, rfl, rfl, hsup, ?_, ⟨⟨_, rfl, hsup⟩, .inl rfl⟩, hsync, hframe.sectorSize.symm, rfl, rfl, ⟨rfl, rfl⟩,
    rfl, ⟨rfl, Nat.zero_le _, ?_⟩, rfl⟩
  · exact congrArg L.geometry hframe.sectorSize.symm
  · rw [hframe.ss]
    exact hlaw
  · intro rel hrel
    -- Below boundary 0 there is nothing, so the plain view is the device.
    refine (if_neg (Nat.not_lt_zero rel)).trans (hframe.sector_eq ?_)
    rintro ⟨i, hi, he⟩
    refine L.metaLba_not_data hi (he ▸ ?_)
    change _ < (L.geometry d.sectorSize).dataSectors.toNat at hrel
    change L.InData ((L.geometry d.sectorSize).offsetSector.toNat + rel)
    change (L.geometry d.sectorSize).offsetSector.toNat = _ at hoffset
    change (L.geometry d.sectorSize).dataSectors.toNat = _ at htotal
    rw [hoffset]
    rw [htotal] at hrel
    exact ⟨by omega, by omega⟩

/-- The SDK or PREPARE puts new metadata on a partition and the driver attaches it with the same key, finding every
replica: the attach succeeds at boundary 0, and over every later run of requests, sweeps, changes of direction, resets,
hooked Block IO and mounts in which each boot finds its replicas, every read is answered with what was last written, or
with what the partition held before there was any metadata on it. Below the boundary the disk has this under the key
that was drawn, and above it in the clear. -/
theorem encrypts_in_place (hF : Exact F) (hplace : InPlaceCipher cipher) (hlaw : LawfulCipher d.ss cipher)
    (hL : L.Of d.sectorSize d.totalSectors o) (hfit : CountsFit o)
    (hent : env.entropy = .ok (fvek1, fvek2, volumeID, salt))
    (hsup : ∀ n, (E.supplierOf ⟨fvek1, fvek2⟩).getCipher n = some cipher)
    (hcreates : Creates E.primitives env E.vmk o d d₁)
    (hopen : JvckMetadataReader.openReader E.primitives d₁ = .ok reader)
    (hread : reader.lbas.all fun lba => (readBlock d₁ reader.geometry.sectorSize lba).isOk) (resume : Bool) :
    ∃ volume, attach E resume d₁ = .ok volume ∧ volume.encryptedBoundary = 0 ∧
      ∀ ops m', StepRun.Along (step F E (L.geometry d.sectorSize)) (Bootable E.primitives L)
          ⟨d₁, .driver volume none, []⟩ ops →
        StepRun.run (step F E (L.geometry d.sectorSize)) ⟨d₁, .driver volume none, []⟩ ops = some m' →
          m'.replies = (ops.foldl (apply (L.geometry d.sectorSize)) (dataOf (L.geometry d.sectorSize) d)).replies ∧
            ∀ volume' burst, m'.phase = .driver volume' burst → ∀ rel, rel < (L.geometry d.sectorSize).dataSectors.toNat →
              plainSector cipher (L.geometry d.sectorSize).offsetSector.toNat volume'.encryptedBoundary.toNat m'.device
                  rel =
                (ops.foldl (apply (L.geometry d.sectorSize)) (dataOf (L.geometry d.sectorSize) d)).plain rel := by
  have hcreated := hcreates.created hL hent
  have hmount := hcreated.mounted hlaw hL hfit hsup
  have hopens : Opens E.primitives L d₁ := ⟨hcreated.last hL, reader, hopen, hread⟩
  obtain ⟨volume, hattach, hmounted, hboundary⟩ := attach_of_opens hmount hopens resume
  refine ⟨volume, hattach, hboundary, ?_⟩
  intro ops m' halong hrun
  have hcarried : Carried E L (L.geometry d.sectorSize) cipher ⟨d₁, .driver volume none, []⟩
      (dataOf (L.geometry d.sectorSize) d) := hmounted
  have hfin := StepRun.run_simulates_along (R := Carried E L (L.geometry d.sectorSize) cipher)
    (apply (L.geometry d.sectorSize)) (step_carried hF hplace) hcarried halong hrun
  obtain ⟨carried, hmount'⟩ := hfin.mounted
  refine ⟨hmount'.replies, ?_⟩
  intro volume' burst hphase rel hrel
  rw [Carried, hphase] at hfin
  exact hfin.plain_eq hrel

end Attached

/-! ## A blank partition -/

section Sample

/-- The sector behind `Transparency.firstSector`. -/
def nextSector : DataPath.Irp := ⟨257 * 512, 512, List.replicate 512 0, true, true⟩

/-- The sweep passes both sectors, the loader writes the first, and the driver reads them after the boot. -/
def sweepAndBoot : List Op :=
  [.driver .startEncrypt, .driver (.sweep 300), .powerOn ⟨.ok (), .ok ()⟩, .writeBlocks 256 loaderSector, .mount true,
    .driver (.read Transparency.firstSector), .driver (.read nextSector)]

theorem sweepAndBoot_proper : ProperRun (twoFooters.geometry 512) true sweepAndBoot := by
  have hin : InBlocks (twoFooters.geometry 512) 256 loaderSector.length := by
    rw [loaderSector, List.length_replicate]
    decide
  have hfirst : Transparency.InDataRegion (twoFooters.geometry 512) Transparency.firstSector :=
    ⟨by decide, by decide, List.length_replicate, by decide, by decide⟩
  have hnext : Transparency.InDataRegion (twoFooters.geometry 512) nextSector :=
    ⟨by decide, by decide, List.length_replicate, by decide, by decide⟩
  exact ⟨⟨rfl, trivial⟩, ⟨rfl, trivial⟩, ⟨rfl, rfl⟩, ⟨rfl, hin⟩, rfl, ⟨rfl, hfirst, rfl, rfl⟩, ⟨rfl, hnext, rfl, rfl⟩,
    trivial⟩

/-- A read of one sector on the plain disk. -/
theorem apply_read_one (g : Geometry) (irp : DataPath.Irp) (rel : Nat)
    (hone : irp.length.toNat / g.sectorSize.toNat = 1) (hrel : Transparency.relOf g irp = rel) (p : PlainVolume) :
    apply g p (.driver (.read irp)) = { p with replies := p.replies ++ [p.plain rel] } := by
  rw [apply, PlainVolume.apply, hone, hrel, List.range_one, List.flatMap_singleton]
  rfl

/-- On the plain disk one sector is what the loader wrote and the other what the partition held. -/
theorem sweepAndBoot_replies (p : PlainVolume) :
    (sweepAndBoot.foldl (apply (twoFooters.geometry 512)) p).replies = p.replies ++ [loaderSector, p.plain 257] := by
  have hfirst := apply_read_one (twoFooters.geometry 512) Transparency.firstSector 256 (by decide) (by decide)
  have hnext := apply_read_one (twoFooters.geometry 512) nextSector 257 (by decide) (by decide)
  have hwrite (q : PlainVolume) : apply (twoFooters.geometry 512) q (.writeBlocks 256 loaderSector) =
      { q with plain := fun rel => if rel = 256 then loaderSector else q.plain rel } := by
    have hlen : loaderSector.length = 512 := List.length_replicate
    have hall := slice_all loaderSector
    rw [hlen] at hall
    have hlba : (256 : UInt64).toNat - (twoFooters.geometry 512).offsetSector.toNat = 256 := by decide
    have hss : (twoFooters.geometry 512).sectorSize.toNat = 512 := by decide
    simp only [apply, hlba, hss, hlen]
    congr 1
    funext rel
    by_cases h : rel = 256
    · subst h
      exact hall
    · rw [if_neg (by omega), if_neg h]
  have hidle (q : PlainVolume) : apply (twoFooters.geometry 512) q (.driver .startEncrypt) = q ∧
      apply (twoFooters.geometry 512) q (.driver (.sweep 300)) = q ∧
      apply (twoFooters.geometry 512) q (.powerOn ⟨.ok (), .ok ()⟩) = q ∧
      apply (twoFooters.geometry 512) q (.mount true) = q := ⟨rfl, rfl, rfl, rfl⟩
  simp only [sweepAndBoot, List.foldl_cons, List.foldl_nil, hfirst, hnext, hwrite, hidle]
  simp

/-- Metadata with two footers on 1024 blank sectors; encryption, a boot, and reads under the driver. -/
theorem encrypts_in_place_sweepAndBoot :
    ∃ d₁ log volume m',
      ensureJvckMetadata JvckMetadata.standard SdkEnsure.calm (blank 512 1024 (by decide)) [1, 2, 3] ⟨0, 2, 131072⟩ =
        (.ok true, d₁, log) ∧
      attach Transparency.headerEnv false d₁ = .ok volume ∧
      StepRun.run (step diskFirmware Transparency.headerEnv (twoFooters.geometry 512)) ⟨d₁, .driver volume none, []⟩
        sweepAndBoot = some m' ∧
      m'.replies = [loaderSector, List.replicate 512 0] := by
  obtain ⟨d₁, log, h⟩ := SdkEnsure.ensure_creates_blank (o := ⟨0, 2, 131072⟩) (by decide) (by decide) [1, 2, 3] (by decide)
  have hfit : CountsFit ⟨0, 2, 131072⟩ := ⟨by decide, by decide⟩
  have hcreates : Creates JvckMetadata.standard SdkEnsure.calm [1, 2, 3] ⟨0, 2, 131072⟩ (blank 512 1024 (by decide)) d₁ :=
    .ensure log h
  have hmount := (hcreates.created twoFooters_of rfl).mounted (E := Transparency.headerEnv)
    (Transparency.flipCipher_lawful _) twoFooters_of hfit fun _ => rfl
  have hd : Healthy d₁ := (SdkEnsure.ensure_frame (blank_healthy _) h).1
  have hfooters : 0 < twoFooters.footers := by decide
  have hopens := opens_of_healthy hmount hd (.inl hfooters)
  obtain ⟨-, reader, hopen, hread⟩ := id hopens
  obtain ⟨volume, hattach, -, hruns⟩ := encrypts_in_place (E := Transparency.headerEnv) diskFirmware_exact
    flipCipher_inPlace (Transparency.flipCipher_lawful _) twoFooters_of hfit rfl (fun _ => rfl) hcreates hopen hread false
  obtain ⟨volume', hattach', hmounted, -⟩ := attach_of_opens hmount hopens false
  obtain rfl := Except.ok.inj (hattach.symm.trans hattach')
  have hcarried : Carried Transparency.headerEnv twoFooters (twoFooters.geometry 512) Transparency.flipCipher
      ⟨d₁, .driver volume none, []⟩ (dataOf (twoFooters.geometry 512) (blank 512 1024 (by decide))) := hmounted
  obtain ⟨halong, m', hrun⟩ := run_proper flipCipher_inPlace hfooters hcarried hd sweepAndBoot_proper
  refine ⟨d₁, log, volume, m', h, hattach, hrun, ?_⟩
  have hzero (h : (1024 : UInt64).toNat * (512 : UInt32).toNat < 2 ^ 64) (lba : Nat) :
      (blank 512 1024 h).sector lba = List.replicate 512 0 := load_zero _ _
  refine (hruns sweepAndBoot m' halong hrun).1.trans ?_
  refine (sweepAndBoot_replies _).trans ?_
  simp only [dataOf, hzero, List.nil_append]

end Sample

end InPlace
