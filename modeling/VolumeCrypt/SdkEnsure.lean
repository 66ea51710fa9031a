import VolumeCrypt.JvckReplicas
import VolumeCrypt.PrepareLayout
import VolumeCrypt.SdkMetadata

/-!
# First-time metadata creation in the SDK

`HasJvckMetadata` and `EnsureJvckMetadata` of `sdk/jvck_windows.go`. The first probes one
fixed sector, the second probes the same sector and, if it holds no metadata, draws a new
key and writes every replica of the requested layout. A run also reports the writes that
it completed, in order.
-/
namespace SdkEnsure

open ByteString ByteMemory VckTypes SectorIo JvckLayout PrepareLayout SdkMetadata
open JvckMetadata (Primitives JvckHeader JvckSecrets)

def minMetadataSize : UInt32 := 128 * 1024

/-! ## Sector access at a byte offset -/

/-- The sectors that the bytes `[off, off + len)` lie in. -/
def spanned (d : Device) (off len : Nat) : List Nat :=
  (List.range ((off + len + d.ss - 1) / d.ss - off / d.ss)).map (off / d.ss + ·)

def readSectorAt (d : Device) (offset : UInt64) (len : Nat) : Except String Bytes :=
  if offset.toNat + len ≤ d.sectors * d.ss ∧ (spanned d offset.toNat len).all (!d.readFault ·) then
    .ok (load d.bytes offset.toNat len)
  else .error "ReadFile failed"

def writeSectorAt (d : Device) (offset : UInt64) (buf : Bytes) : Except String Unit × Device :=
  if offset.toNat + buf.length ≤ d.sectors * d.ss ∧ (spanned d offset.toNat buf.length).all (!d.writeFault ·) then
    (.ok (), { d with bytes := save d.bytes offset.toNat buf })
  else (.error "WriteFile failed", d)

/-- Completed writes: byte offset and data. -/
abbrev WriteLog := List (Nat × Bytes)

/-- The loop that writes `sector` to every replica. -/
def writeEach (sector : Bytes) (d : Device) : List UInt64 → Except String Unit × Device × WriteLog
  | [] => (.ok (), d, [])
  | lba :: lbas =>
    let offset := lba * d.sectorSize.toUInt64
    match writeSectorAt d offset sector with
    | (.error e, d) => (.error ("failed to write metadata replica at lba " ++ toString lba ++ ": " ++ e), d, [])
    | (.ok (), d) =>
      let (r, d, log) := writeEach sector d lbas
      (r, d, (offset.toNat, sector) :: log)

/-! ## The entry points -/

/-- What the system answers: opening the handle and querying the volume, and the CSPRNG. -/
structure Env where
  handle : Except String Unit
  entropy : Except String (Fixed 32 × Fixed 32 × Fixed 16 × Fixed 16)

/-- The byte offset of the volume's last sector. -/
def lastSectorOffset (volumeSectors : UInt64) (sectorSize : UInt32) : UInt64 :=
  (volumeSectors - 1) * sectorSize.toUInt64

def hasJvckMetadata (P : Primitives) (handle : Except String Unit) (d : Device) (length : UInt64)
    (sectorSize : UInt32) : Except String Bool :=
  if sectorSize.toNat < metadataBlockSize then
    .error ("sector size " ++ toString sectorSize ++ " smaller than " ++ toString metadataBlockSize)
  else
    match handle with
    | .error e => .error e
    | .ok () =>
      match readSectorAt d (lastSectorOffset (length / sectorSize.toUInt64) sectorSize) sectorSize.toNat with
      | .error e => .error ("failed to probe footer metadata: " ++ e)
      | .ok last => .ok (verifyMetadataCRC P last)

/-- Everything that `EnsureJvckMetadata` checks before it reads the volume. -/
def ensureChecks (handle : Except String Unit) (sectorSize : UInt32) (volumeSectors : UInt64)
    (o : JvckMetadataOptions) : Except String Unit :=
  if o.useHeader + o.useFooter = 0 then .error "use_header + use_footer must be >= 1"
  else if o.metadataSize < minMetadataSize then
    .error ("metadata_size must be at least " ++ toString minMetadataSize ++ " bytes")
  else
    match handle with
    | .error e => .error e
    | .ok () =>
      if sectorSize.toNat < metadataBlockSize then
        .error ("sector size " ++ toString sectorSize ++ " smaller than " ++ toString metadataBlockSize)
      else if replicaSectors o.metadataSize sectorSize = 0 then .error "metadata_size smaller than one sector"
      else if (o.useHeader + o.useFooter).toUInt64 * replicaSectors o.metadataSize sectorSize ≥ volumeSectors then
        .error "volume too small to hold metadata replicas"
      else .ok ()

/-- The header of a new volume; the counts are narrowed to a byte. -/
def newHeader (sectorSize : UInt32) (o : JvckMetadataOptions) (volumeID : Fixed 16) : JvckHeader :=
  { vendorId := 0
    metadataVersion := 1
    vendorVersion := 0
    metadataSize := o.metadataSize
    sectorSize := sectorSize
    headerReplicaCount := o.useHeader.toUInt8
    footerReplicaCount := o.useFooter.toUInt8
    volumeId := volumeID
    vendorReserved := List.Vector.replicate 192 0 }

/-- The Metadata block alone in its sector, the rest zero. -/
def newSector (P : Primitives) (sectorSize : UInt32) (vmk : Bytes) (o : JvckMetadataOptions) (fvek1 fvek2 : Fixed 32)
    (volumeID salt : Fixed 16) : Bytes :=
  let block := encodeMetadataBlock P (newHeader sectorSize o volumeID) fvek1 fvek2 0 salt vmk
  copyAt (List.replicate sectorSize.toNat 0) 0 block

def ensureJvckMetadata (P : Primitives) (env : Env) (d : Device) (vmk : Bytes) (o : JvckMetadataOptions) :
    Except String Bool × Device × WriteLog :=
  match ensureChecks env.handle d.sectorSize d.totalSectors o with
  | .error e => (.error e, d, [])
  | .ok () =>
    match readSectorAt d (lastSectorOffset d.totalSectors d.sectorSize) d.sectorSize.toNat with
    | .error e => (.error ("failed to probe footer metadata: " ++ e), d, [])
    | .ok last =>
      if verifyMetadataCRC P last then (.ok false, d, [])
      else
        match env.entropy with
        | .error e => (.error ("failed to read CSPRNG: " ++ e), d, [])
        | .ok (fvek1, fvek2, volumeID, salt) =>
          let sector := newSector P d.sectorSize vmk o fvek1 fvek2 volumeID salt
          match writeEach sector d (sdkMetadataSectorLbas d.totalSectors
              (replicaSectors o.metadataSize d.sectorSize) o.useHeader o.useFooter) with
          | (.error e, d, log) => (.error e, d, log)
          | (.ok (), d, log) => (.ok true, d, log)

/-! ## Runs and their logs -/

/-- The memory after the writes of a log. -/
def replay (m : Memory) (log : WriteLog) : Memory := log.foldl (fun m e => save m e.1 e.2) m

theorem writeSectorAt_cases (d : Device) (offset : UInt64) (buf : Bytes) :
    writeSectorAt d offset buf = (.ok (), { d with bytes := save d.bytes offset.toNat buf }) ∨
      writeSectorAt d offset buf = (.error "WriteFile failed", d) := by
  rw [writeSectorAt]
  split
  · exact .inl rfl
  · exact .inr rfl

/-- A run changes the bytes by its log and nothing else. -/
theorem writeEach_device (sector : Bytes) (d : Device) (lbas : List UInt64) :
    (writeEach sector d lbas).2.1 = { d with bytes := replay d.bytes (writeEach sector d lbas).2.2 } := by
  induction lbas generalizing d with
  | nil => rfl
  | cons lba lbas ih =>
    rw [writeEach]
    rcases writeSectorAt_cases d (lba * d.sectorSize.toUInt64) sector with h | h
    · simp only [h]
      rw [ih]
      rfl
    · simp only [h]
      rfl

theorem writeEach_sector (sector : Bytes) (d : Device) (lbas : List UInt64) :
    ∀ e ∈ (writeEach sector d lbas).2.2, e.2 = sector := by
  induction lbas generalizing d with
  | nil => simp [writeEach]
  | cons lba lbas ih =>
    rw [writeEach]
    rcases writeSectorAt_cases d (lba * d.sectorSize.toUInt64) sector with h | h
    · simp only [h, List.mem_cons, forall_eq_or_imp, true_and]
      exact ih _
    · simp [h]

/-- A run that ends well has written the last sector of its list last. -/
theorem writeEach_last (sector : Bytes) {d : Device} {lbas : List UInt64} {lba : UInt64}
    (hlast : lbas.getLast? = some lba) (hok : (writeEach sector d lbas).1 = .ok ()) :
    ∃ log, (writeEach sector d lbas).2.2 = log ++ [((lba * d.sectorSize.toUInt64).toNat, sector)] := by
  induction lbas generalizing d with
  | nil => cases hlast
  | cons l lbas ih =>
    rw [writeEach] at hok ⊢
    rcases writeSectorAt_cases d (l * d.sectorSize.toUInt64) sector with h | h
    · simp only [h] at hok ⊢
      cases lbas with
      | nil =>
        obtain rfl : l = lba := by simpa using hlast
        exact ⟨[], rfl⟩
      | cons l' lbas =>
        rw [List.getLast?_cons_cons] at hlast
        obtain ⟨log, hlog⟩ := ih (d := { d with bytes := _ }) hlast hok
        exact ⟨_ :: log, by rw [hlog]; rfl⟩
    · simp only [h] at hok
      cases hok

/-! ## What is accepted -/

/-- The SDK accepts exactly what the store's own creation accepts. -/
theorem ensureChecks_ok_iff {handle : Except String Unit} {sectorSize : UInt32} {volumeSectors : UInt64}
    {o : JvckMetadataOptions} :
    ensureChecks handle sectorSize volumeSectors o = .ok () ↔
      handle = .ok () ∧ o.validate = .ok () ∧ ∃ g, computeGeometry sectorSize volumeSectors o = .ok g := by
  simp only [ensureChecks, JvckMetadataOptions.validate, JvckMetadataOptions.replicaCount, computeGeometry]
  by_cases hc : o.useHeader + o.useFooter = 0
  · simp only [hc, if_true, reduceCtorEq, false_iff, not_and]
    intro _ hv
    split at hv <;> cases hv
  · by_cases hm : o.metadataSize < minMetadataSize
    · have hm' : o.metadataSize < JvckLayout.minMetadataSize := hm
      simp only [hc, hm, hm', if_true, if_false, reduceCtorEq, false_and, and_false]
    · have hm' : ¬ o.metadataSize < JvckLayout.minMetadataSize := hm
      cases handle with
      | error e => simp only [hc, hm, if_false, reduceCtorEq, false_and]
      | ok u =>
        simp only [hc, hm, hm', if_false, true_and, metadataBlockSize]
        by_cases hs : sectorSize.toNat < 512
        · simp only [hs, if_true, reduceCtorEq, exists_false]
        · by_cases hr : replicaSectors o.metadataSize sectorSize = 0
          · simp only [hs, hr, if_true, if_false, reduceCtorEq, exists_false]
          · by_cases hfit :
              (o.useHeader + o.useFooter).toUInt64 * replicaSectors o.metadataSize sectorSize ≥ volumeSectors
            · simp only [hs, hr, hfit, if_true, if_false, reduceCtorEq, exists_false]
            · simp only [hs, hr, hfit, if_false, Except.ok.injEq, exists_eq']

/-- With a footer the last sector of the list is the last sector of the volume, whether the counts wrap or not. -/
theorem getLast?_metadataSectorLbas (volumeSectors rs : UInt64) (useHeader : UInt32) {useFooter : UInt32}
    (h : 0 < useFooter.toNat) :
    (metadataSectorLbas volumeSectors rs useHeader useFooter).getLast? = some (volumeSectors - 1) := by
  obtain ⟨k, hk⟩ : ∃ k, useFooter.toNat = k + 1 := ⟨useFooter.toNat - 1, by omega⟩
  have hx : useFooter.toUInt64 = UInt64.ofNat k + 1 := by
    rw [toUInt64_eq, hk, UInt64.ofNat_add]
    rfl
  rw [metadataSectorLbas, hk, List.range_succ, List.map_append, ← List.append_assoc, List.map_singleton,
    List.getLast?_concat, hx]
  congr 1
  simp only
  grind

section LastSector

variable {d : Device}

theorem toNat_lastSectorOffset (hn : 0 < d.sectors) :
    (lastSectorOffset d.totalSectors d.sectorSize).toNat = (d.sectors - 1) * d.ss := by
  have hone : (1 : UInt64) ≤ d.totalSectors := by
    rw [UInt64.le_iff_toNat_le]
    exact hn
  have hsub : (d.totalSectors - 1).toNat = d.sectors - 1 := UInt64.toNat_sub_of_le _ _ hone
  have hss : d.sectorSize.toUInt64.toNat = d.ss := UInt32.toNat_toUInt64 _
  have haddr : d.sectors * d.ss < 2 ^ 64 := d.addressable
  have hle : (d.sectors - 1) * d.ss ≤ d.sectors * d.ss := Nat.mul_le_mul_right _ (Nat.sub_le _ _)
  rw [lastSectorOffset, toNat_mul_of_lt (by rw [hsub, hss]; omega), hsub, hss]

theorem readSectorAt_last (hd : Healthy d) (hn : 0 < d.sectors) :
    readSectorAt d (lastSectorOffset d.totalSectors d.sectorSize) d.sectorSize.toNat =
      .ok (d.sector (d.sectors - 1)) := by
  have hend : (d.sectors - 1) * d.ss + d.ss = d.sectors * d.ss := by
    rw [← Nat.succ_mul, Nat.succ_eq_add_one, Nat.sub_add_cancel hn]
  rw [readSectorAt, toNat_lastSectorOffset hn, if_pos]
  · rfl
  · refine ⟨Nat.le_of_eq hend, ?_⟩
    rw [List.all_eq_true]
    intro i _
    rw [hd.readFault]
    rfl

end LastSector

/-- A volume that passed the checks has a last sector that holds a block. -/
theorem last_of_ensureChecks {handle : Except String Unit} {d : Device} {o : JvckMetadataOptions}
    (h : ensureChecks handle d.sectorSize d.totalSectors o = .ok ()) : 512 ≤ d.ss ∧ 0 < d.sectors := by
  obtain ⟨_, _, g, hg⟩ := ensureChecks_ok_iff.mp h
  obtain ⟨hs, _, hfit, _⟩ := computeGeometry_inv hg
  exact ⟨hs, Nat.lt_of_le_of_lt (Nat.zero_le _) hfit⟩

/-- What a call can do: fail untouched, find metadata, or run the write loop. -/
theorem ensure_cases (P : Primitives) (env : Env) (d : Device) (vmk : Bytes) (o : JvckMetadataOptions) :
    ((ensureChecks env.handle d.sectorSize d.totalSectors o ≠ .ok () ∨
        (∀ last, readSectorAt d (lastSectorOffset d.totalSectors d.sectorSize) d.sectorSize.toNat ≠ .ok last) ∨
        ∀ x, env.entropy ≠ .ok x) ∧
      ∃ e, ensureJvckMetadata P env d vmk o = (.error e, d, [])) ∨
    (∃ last, ensureChecks env.handle d.sectorSize d.totalSectors o = .ok () ∧
      readSectorAt d (lastSectorOffset d.totalSectors d.sectorSize) d.sectorSize.toNat = .ok last ∧
      verifyMetadataCRC P last = true ∧ ensureJvckMetadata P env d vmk o = (.ok false, d, [])) ∨
    ∃ last fvek1 fvek2 volumeID salt, ensureChecks env.handle d.sectorSize d.totalSectors o = .ok () ∧
      readSectorAt d (lastSectorOffset d.totalSectors d.sectorSize) d.sectorSize.toNat = .ok last ∧
      verifyMetadataCRC P last = false ∧ env.entropy = .ok (fvek1, fvek2, volumeID, salt) ∧
      ensureJvckMetadata P env d vmk o =
        ((writeEach (newSector P d.sectorSize vmk o fvek1 fvek2 volumeID salt) d (metadataSectorLbas d.totalSectors
            (replicaSectors o.metadataSize d.sectorSize) o.useHeader o.useFooter)).1.map fun _ => true,
          (writeEach (newSector P d.sectorSize vmk o fvek1 fvek2 volumeID salt) d (metadataSectorLbas d.totalSectors
            (replicaSectors o.metadataSize d.sectorSize) o.useHeader o.useFooter)).2) := by
  simp only [ensureJvckMetadata, sdkMetadataSectorLbas_eq]
  cases hchk : ensureChecks env.handle d.sectorSize d.totalSectors o with
  | error e => exact .inl ⟨.inl (by simp), e, rfl⟩
  | ok u =>
    cases hread : readSectorAt d (lastSectorOffset d.totalSectors d.sectorSize) d.sectorSize.toNat with
    | error e => exact .inl ⟨.inr (.inl (by simp)), _, rfl⟩
    | ok last =>
      cases hv : verifyMetadataCRC P last with
      | true => exact .inr (.inl ⟨last, rfl, rfl, hv, if_pos hv⟩)
      | false =>
        have hnot : ¬ verifyMetadataCRC P last = true := by simp [hv]
        cases hent : env.entropy with
        | error e => exact .inl ⟨.inr (.inr (by simp)), _, if_neg hnot⟩
        | ok x =>
          obtain ⟨fvek1, fvek2, volumeID, salt⟩ := x
          refine .inr (.inr ⟨last, fvek1, fvek2, volumeID, salt, rfl, rfl, hv, rfl, ?_⟩)
          simp only [hnot]
          generalize writeEach _ d _ = w
          obtain ⟨r, d', log⟩ := w
          cases r <;> rfl

theorem length_newSector (P : Primitives) {sectorSize : UInt32} (hs : 512 ≤ sectorSize.toNat) (vmk : Bytes)
    (o : JvckMetadataOptions) (fvek1 fvek2 : Fixed 32) (volumeID salt : Fixed 16) :
    (newSector P sectorSize vmk o fvek1 fvek2 volumeID salt).length = sectorSize.toNat := by
  have henc := encodeMetadataBlock_eq P (newHeader sectorSize o volumeID) ⟨fvek1, fvek2⟩ 0 salt vmk
  simp only at henc
  rw [newSector, henc, length_copyAt, List.length_replicate]
  rw [List.length_replicate, JvckMetadata.length_encode]
  exact hs

/-- The first 512 bytes of a new sector are the encoded block. -/
theorem slice_newSector {P : Primitives} {sectorSize : UInt32} (vmk : Bytes) (o : JvckMetadataOptions)
    (fvek1 fvek2 : Fixed 32) (volumeID salt : Fixed 16) :
    slice (newSector P sectorSize vmk o fvek1 fvek2 volumeID salt) 0 512 =
      JvckMetadata.encode P (newHeader sectorSize o volumeID) ⟨fvek1, fvek2⟩ 0 .encrypt salt vmk := by
  have henc := encodeMetadataBlock_eq P (newHeader sectorSize o volumeID) ⟨fvek1, fvek2⟩ 0 salt vmk
  simp only at henc
  rw [newSector, henc, slice_copyAt_same (Nat.zero_le _) (JvckMetadata.length_encode ..)]

/-- The test reads the first 512 bytes only. -/
theorem verifyMetadataCRC_slice {P : Primitives} {sector : Bytes} (hl : 512 ≤ sector.length) :
    verifyMetadataCRC P sector = true ↔ JvckMetadata.verifyCrc P (slice sector 0 512) = .ok () := by
  have hlen : (slice sector 0 512).length = 512 := length_slice_of_le (by omega)
  rw [verifyMetadataCRC_iff, JvckMetadata.verifyCrc_ok_iff, JvckMetadata.verifyCrc_ok_iff, JvckMetadata.leU32,
    JvckMetadata.leU32, slice_slice sector (by decide), slice_slice sector (by decide), slice_slice sector (by decide),
    hlen]
  simp [hl]

/-! ## Calling twice -/

/-- A sector of the data region that `compute_geometry` gives for these options. -/
def DataSector (sectorSize : UInt32) (volumeSectors : UInt64) (o : JvckMetadataOptions) (lba : Nat) : Prop :=
  ∃ g, computeGeometry sectorSize volumeSectors o = .ok g ∧ g.offsetSector.toNat ≤ lba ∧
    lba < g.offsetSector.toNat + g.dataSectors.toNat

/-- After a first call left `d₁`: further calls and probes find the metadata, whatever the data region holds. -/
structure Settled (P : Primitives) (vmk : Bytes) (o : JvckMetadataOptions) (d₁ : Device) : Prop where
  second : ∀ (env : Env) (d₂ : Device), env.handle = .ok () →
    Frame (DataSector d₁.sectorSize d₁.totalSectors o) d₁ d₂ → ensureJvckMetadata P env d₂ vmk o = (.ok false, d₂, [])
  detected : ∀ length : UInt64, length / d₁.sectorSize.toUInt64 = d₁.totalSectors →
    hasJvckMetadata P (.ok ()) d₁ length d₁.sectorSize = .ok true

/-- The last sector belongs to a footer: there is one, and the header regions do not wrap around it. -/
def FooterLast (sectorSize : UInt32) (volumeSectors : UInt64) (o : JvckMetadataOptions) : Prop :=
  0 < o.useFooter.toNat ∧
    (o.useHeader.toNat + o.useFooter.toNat < 2 ^ 32 ∨
      volumeSectors.toNat ≤ o.useHeader.toNat * (o.metadataSize.toNat / sectorSize.toNat))

section Twice

variable {P : Primitives} {env : Env} {d d₁ : Device} {vmk : Bytes} {o : JvckMetadataOptions} {b : Bool} {log : WriteLog}

/-- The last sector is a data sector exactly when no footer holds it. -/
theorem dataSector_last_iff {sectorSize : UInt32} {volumeSectors : UInt64} {g : Geometry}
    (hg : computeGeometry sectorSize volumeSectors o = .ok g) :
    ¬ DataSector sectorSize volumeSectors o (volumeSectors.toNat - 1) ↔ FooterLast sectorSize volumeSectors o := by
  obtain ⟨hoff, hdata, hfit⟩ := toNat_geometry hg
  obtain ⟨_, hpos, _⟩ := computeGeometry_inv hg
  have huh := o.useHeader.toNat_lt
  have huf := o.useFooter.toNat_lt
  have hds : DataSector sectorSize volumeSectors o (volumeSectors.toNat - 1) ↔
      g.offsetSector.toNat ≤ volumeSectors.toNat - 1 ∧
        volumeSectors.toNat - 1 < g.offsetSector.toNat + g.dataSectors.toNat := by
    constructor
    · rintro ⟨g', hg', h⟩
      obtain rfl := Except.ok.inj (hg.symm.trans hg')
      exact h
    · intro h
      exact ⟨g, hg, h⟩
  rw [hds, FooterLast, hoff, hdata]
  generalize o.metadataSize.toNat / sectorSize.toNat = rs at hpos hfit ⊢
  by_cases hwrap : o.useHeader.toNat + o.useFooter.toNat < 2 ^ 32
  · rw [Nat.mod_eq_of_lt hwrap, Nat.add_mul] at hfit ⊢
    have hfoot : 0 < o.useFooter.toNat * rs ↔ 0 < o.useFooter.toNat := Nat.mul_pos_iff_of_pos_right hpos
    omega
  · have hmod : (o.useHeader.toNat + o.useFooter.toNat) % 2 ^ 32 ≤ o.useHeader.toNat := by omega
    have hle := Nat.mul_le_mul_right rs hmod
    omega

/-- A call without error changes bytes only. -/
theorem ensure_device (h : ensureJvckMetadata P env d vmk o = (.ok b, d₁, log)) :
    d₁ = { d with bytes := replay d.bytes log } ∧ ensureChecks env.handle d.sectorSize d.totalSectors o = .ok () := by
  rcases ensure_cases P env d vmk o with ⟨_, e, he⟩ | ⟨_, hchk, _, _, he⟩ | ⟨_, k₁, k₂, vid, salt, hchk, _, _, _, he⟩
  · rw [he] at h
    cases (Prod.mk.inj h).1
  · rw [he] at h
    obtain ⟨_, h₂⟩ := Prod.mk.inj h
    obtain ⟨rfl, rfl⟩ := Prod.mk.inj h₂
    exact ⟨rfl, hchk⟩
  · rw [he] at h
    obtain ⟨_, h₂⟩ := Prod.mk.inj h
    have hdev := writeEach_device (newSector P d.sectorSize vmk o k₁ k₂ vid salt) d (metadataSectorLbas d.totalSectors
      (replicaSectors o.metadataSize d.sectorSize) o.useHeader o.useFooter)
    rw [h₂] at hdev
    exact ⟨hdev, hchk⟩

/-- After a call without error the last sector carries a valid checksum, if the layout has a footer. -/
theorem ensure_last (hd : Healthy d) (hf : 0 < o.useFooter.toNat)
    (h : ensureJvckMetadata P env d vmk o = (.ok b, d₁, log)) :
    verifyMetadataCRC P (d₁.sector (d.sectors - 1)) = true := by
  obtain ⟨hdev, hchk⟩ := ensure_device h
  obtain ⟨hs, hn⟩ := last_of_ensureChecks hchk
  rcases ensure_cases P env d vmk o with ⟨_, e, he⟩ | ⟨last, _, hread, hv, he⟩ | ⟨_, k₁, k₂, vid, salt, _, _, _, _, he⟩
  · rw [he] at h
    cases (Prod.mk.inj h).1
  · rw [he] at h
    obtain ⟨_, h₂⟩ := Prod.mk.inj h
    obtain ⟨rfl, _⟩ := Prod.mk.inj h₂
    rw [readSectorAt_last hd hn] at hread
    rw [Except.ok.inj hread]
    exact hv
  · rw [he] at h
    obtain ⟨h₁, h₂⟩ := Prod.mk.inj h
    have hlast := getLast?_metadataSectorLbas d.totalSectors (replicaSectors o.metadataSize d.sectorSize)
      o.useHeader hf
    have hlen := length_newSector P hs vmk o k₁ k₂ vid salt
    obtain ⟨log', hlog⟩ := writeEach_last (newSector P d.sectorSize vmk o k₁ k₂ vid salt) (d := d) hlast (by
      revert h₁
      generalize (writeEach _ d _).1 = r
      cases r with
      | error e => intro h₁; cases h₁
      | ok u => intro; rfl)
    rw [h₂] at hlog
    have hsector : d₁.sector (d.sectors - 1) = newSector P d.sectorSize vmk o k₁ k₂ vid salt := by
      have hoff := toNat_lastSectorOffset hn
      rw [lastSectorOffset] at hoff
      rw [hdev, show log = _ from hlog, replay, List.foldl_append, hoff]
      exact load_save_same _ hlen
    rw [hsector, verifyMetadataCRC_slice (by rw [hlen]; exact hs), slice_newSector]
    exact JvckMetadata.verifyCrc_encode ..

/-- A blank sector is no Metadata block. -/
theorem verifyMetadataCRC_zero (P : Primitives) {n : Nat} (hn : 512 ≤ n) :
    verifyMetadataCRC P (List.replicate n 0) = false := by
  have hsig : slice (List.replicate n (0 : UInt8)) 0 4 = List.replicate 4 0 := by
    rw [slice, List.drop_zero, List.take_replicate, Nat.min_eq_left (by omega)]
  cases hv : verifyMetadataCRC P (List.replicate n 0) with
  | false => rfl
  | true =>
    rw [verifyMetadataCRC_iff, JvckMetadata.verifyCrc_ok_iff, hsig] at hv
    exact absurd hv.2.1 (by decide)

/-- A call that finds a valid last sector does nothing. -/
theorem ensure_of_last (hd : Healthy d) (hchk : ensureChecks env.handle d.sectorSize d.totalSectors o = .ok ())
    (hv : verifyMetadataCRC P (d.sector (d.sectors - 1)) = true) :
    ensureJvckMetadata P env d vmk o = (.ok false, d, []) := by
  obtain ⟨_, hn⟩ := last_of_ensureChecks hchk
  rw [ensureJvckMetadata, hchk]
  simp only [readSectorAt_last hd hn, hv, if_true]

/-- Only a valid last sector makes a call report existing metadata. -/
theorem last_of_ensure_false (hd : Healthy d) (h : ensureJvckMetadata P env d vmk o = (.ok false, d₁, log)) :
    verifyMetadataCRC P (d.sector (d.sectors - 1)) = true := by
  obtain ⟨_, hchk⟩ := ensure_device h
  obtain ⟨_, hn⟩ := last_of_ensureChecks hchk
  rcases ensure_cases P env d vmk o with ⟨_, e, he⟩ | ⟨last, _, hread, hv, _⟩ | ⟨_, k₁, k₂, vid, salt, _, _, _, _, he⟩
  · rw [he] at h
    cases (Prod.mk.inj h).1
  · rw [readSectorAt_last hd hn] at hread
    rw [Except.ok.inj hread]
    exact hv
  · rw [he] at h
    have h₁ := (Prod.mk.inj h).1
    revert h₁
    generalize (writeEach _ d _).1 = r
    cases r with
    | error e => intro h₁; cases h₁
    | ok u => intro h₁; cases h₁

/-- The device with its last sector zeroed. -/
def wipeLast (d : Device) : Device :=
  { d with bytes := save d.bytes ((d.sectors - 1) * d.ss) (List.replicate d.ss 0) }

theorem sector_wipeLast (d : Device) : (wipeLast d).sector (d.sectors - 1) = List.replicate d.ss 0 :=
  load_save_same _ (List.length_replicate ..)

theorem wipeLast_frame {S : Nat → Prop} (hs : 0 < d.ss) (hl : S (d.sectors - 1)) : Frame S d (wipeLast d) := by
  refine ⟨rfl, rfl, rfl, rfl, rfl, ?_⟩
  intro a ha
  apply save_apply_of_not_mem
  rw [List.length_replicate]
  have hne : a / d.ss ≠ d.sectors - 1 := fun he => ha (he ▸ hl)
  rcases Nat.lt_or_gt_of_ne hne with h | h
  · exact .inl ((Nat.div_lt_iff_lt_mul hs).mp h)
  · right
    rw [← Nat.succ_mul]
    exact (Nat.le_div_iff_mul_le hs).mp h

/-- What a first call without error leaves of the device. -/
theorem ensure_frame (hd : Healthy d) (h : ensureJvckMetadata P env d vmk o = (.ok b, d₁, log)) :
    Healthy d₁ ∧ d₁.sectorSize = d.sectorSize ∧ d₁.totalSectors = d.totalSectors ∧ d₁.ss = d.ss ∧
      d₁.sectors = d.sectors := by
  obtain ⟨rfl, _⟩ := ensure_device h
  exact ⟨⟨hd.readFault, hd.writeFault, hd.random⟩, rfl, rfl, rfl, rfl⟩

/-- Where the last sector is a data sector, a data write makes the next call miss the metadata. -/
theorem footerLast_of_settled (hd : Healthy d) (h : ensureJvckMetadata P env d vmk o = (.ok b, d₁, log))
    (hset : Settled P vmk o d₁) : FooterLast d.sectorSize d.totalSectors o := by
  obtain ⟨_, hchk⟩ := ensure_device h
  obtain ⟨hhandle, _, g, hg⟩ := ensureChecks_ok_iff.mp hchk
  obtain ⟨hs, _⟩ := last_of_ensureChecks hchk
  obtain ⟨hd₁, hsize, htotal, hss, hsectors⟩ := ensure_frame hd h
  rw [← dataSector_last_iff hg]
  intro hdata
  have hframe : Frame (DataSector d₁.sectorSize d₁.totalSectors o) d₁ (wipeLast d₁) := by
    apply wipeLast_frame (by omega)
    rw [hsize, htotal, hsectors]
    exact hdata
  have hv := last_of_ensure_false (hd₁.frame hframe) (hset.second env (wipeLast d₁) hhandle hframe)
  rw [show (wipeLast d₁).sectors = d₁.sectors from rfl, sector_wipeLast,
    verifyMetadataCRC_zero P (by rw [hss]; exact hs)] at hv
  cases hv

/-- Where the last sector is a footer's, no data write reaches it. -/
theorem settled_of_footerLast (hd : Healthy d) (h : ensureJvckMetadata P env d vmk o = (.ok b, d₁, log))
    (hlast : FooterLast d.sectorSize d.totalSectors o) : Settled P vmk o d₁ := by
  obtain ⟨_, hchk⟩ := ensure_device h
  obtain ⟨_, hval, g, hg⟩ := ensureChecks_ok_iff.mp hchk
  obtain ⟨hs, hn⟩ := last_of_ensureChecks hchk
  obtain ⟨hd₁, hsize, htotal, _, hsectors⟩ := ensure_frame hd h
  have hv := ensure_last hd hlast.1 h
  have hdata := (dataSector_last_iff hg).mpr hlast
  constructor
  · intro env' d₂ henv hframe
    have hsame : d₂.sector (d.sectors - 1) = d₁.sector (d.sectors - 1) := by
      apply hframe.sector_eq
      rw [hsize, htotal]
      exact hdata
    apply ensure_of_last (hd₁.frame hframe)
    · rw [hframe.sectorSize, hframe.totalSectors, hsize, htotal]
      exact ensureChecks_ok_iff.mpr ⟨henv, hval, g, hg⟩
    · rw [hframe.sectors, hsectors, hsame]
      exact hv
  · intro length hlen
    have hsmall : ¬ d₁.sectorSize.toNat < metadataBlockSize := by
      rw [hsize]
      exact Nat.not_lt.mpr hs
    have hread := readSectorAt_last hd₁ (by rw [hsectors]; exact hn)
    rw [hasJvckMetadata, if_neg hsmall, hlen]
    simp only [hread, hsectors, hv]

/-- After a first call without error, further calls leave the key alone exactly when the last sector is a footer's. -/
theorem settled_iff_footerLast (hd : Healthy d) (h : ensureJvckMetadata P env d vmk o = (.ok b, d₁, log)) :
    Settled P vmk o d₁ ↔ FooterLast d.sectorSize d.totalSectors o :=
  ⟨footerLast_of_settled hd h, settled_of_footerLast hd h⟩

end Twice

/-! ## Calls that go through -/

theorem writeSectorAt_ok {d : Device} (hd : Healthy d) {lba : UInt64} (hl : lba.toNat < d.sectors) {sector : Bytes}
    (hlen : sector.length = d.ss) :
    (writeSectorAt d (lba * d.sectorSize.toUInt64) sector).1 = .ok () := by
  have hss : d.sectorSize.toUInt64.toNat = d.ss := UInt32.toNat_toUInt64 _
  have haddr : d.sectors * d.ss < 2 ^ 64 := d.addressable
  have hend : lba.toNat * d.ss + d.ss ≤ d.sectors * d.ss := by
    rw [← Nat.succ_mul]
    exact Nat.mul_le_mul_right _ hl
  rw [writeSectorAt, toNat_mul_of_lt (by rw [hss]; omega), hss, hlen, if_pos]
  refine ⟨hend, ?_⟩
  rw [List.all_eq_true]
  intro i _
  rw [hd.writeFault]
  rfl

theorem writeEach_ok {sector : Bytes} {d : Device} (hd : Healthy d) (hlen : sector.length = d.ss) {lbas : List UInt64}
    (hl : ∀ lba ∈ lbas, lba.toNat < d.sectors) : (writeEach sector d lbas).1 = .ok () := by
  induction lbas generalizing d with
  | nil => rfl
  | cons lba lbas ih =>
    have hok := writeSectorAt_ok hd (hl lba (by simp)) hlen
    rw [writeEach]
    rcases writeSectorAt_cases d (lba * d.sectorSize.toUInt64) sector with h | h
    · simp only [h]
      exact ih ⟨hd.readFault, hd.writeFault, hd.random⟩ hlen fun l hl' => hl l (by simp [hl'])
    · rw [h] at hok
      cases hok

/-- On a healthy volume without metadata a call for a layout that fits creates it. -/
theorem ensure_creates {P : Primitives} {env : Env} {d : Device} {vmk : Bytes} {o : JvckMetadataOptions} {L : Layout}
    (hd : Healthy d) (hL : L.Of d.sectorSize d.totalSectors o)
    (hchk : ensureChecks env.handle d.sectorSize d.totalSectors o = .ok ())
    (hv : verifyMetadataCRC P (d.sector (d.sectors - 1)) = false) (hent : ∃ x, env.entropy = .ok x) :
    (ensureJvckMetadata P env d vmk o).1 = .ok true := by
  obtain ⟨⟨k₁, k₂, vid, salt⟩, hent⟩ := hent
  obtain ⟨hs, hn⟩ := last_of_ensureChecks hchk
  have hlbas : ∀ lba ∈ metadataSectorLbas d.totalSectors (replicaSectors o.metadataSize d.sectorSize) o.useHeader
      o.useFooter, lba.toNat < d.sectors := by
    intro lba hmem
    exact hL.lt_of_mem_metadataSectorLbas hmem
  have hw := writeEach_ok hd (length_newSector P hs vmk o k₁ k₂ vid salt) hlbas
  rcases ensure_cases P env d vmk o with ⟨hwhy, _⟩ | ⟨last, _, hread, hlast, _⟩ | ⟨_, _, _, _, _, _, _, _, hent', he⟩
  · rcases hwhy with h | h | h
    · exact absurd hchk h
    · exact absurd (readSectorAt_last hd hn) (h _)
    · exact absurd hent (h _)
  · rw [readSectorAt_last hd hn] at hread
    rw [← Except.ok.inj hread, hv] at hlast
    cases hlast
  · rw [hent] at hent'
    obtain ⟨rfl, rfl, rfl, rfl⟩ : _ ∧ _ ∧ _ ∧ _ := by simpa using Except.ok.inj hent'
    rw [he, hw]
    rfl

/-- A system on which nothing fails. -/
def calm : Env where
  handle := .ok ()
  entropy := .ok (List.Vector.replicate 32 1, List.Vector.replicate 32 2, List.Vector.replicate 16 9,
    List.Vector.replicate 16 5)

/-- A first call on 1024 blank sectors of 512 bytes creates every layout that fits. -/
theorem ensure_creates_blank {o : JvckMetadataOptions} (hc : o.useHeader.toNat + o.useFooter.toNat < 2 ^ 32)
    (hchk : ensureChecks calm.handle 512 1024 o = .ok ()) (vmk : Bytes)
    (h : (1024 : UInt64).toNat * (512 : UInt32).toNat < 2 ^ 64) :
    ∃ d₁ log, ensureJvckMetadata JvckMetadata.standard calm (blank 512 1024 h) vmk o = (.ok true, d₁, log) := by
  obtain ⟨_, _, g, hg⟩ := ensureChecks_ok_iff.mp hchk
  obtain ⟨L, hL, _⟩ := (computeGeometry_ok_iff hc).mp hg
  refine ⟨_, _, Prod.ext (ensure_creates (L := L) (blank_healthy h) hL hchk ?_ ⟨_, rfl⟩) rfl⟩
  have hzero : (blank 512 1024 h).sector ((blank 512 1024 h).sectors - 1) = List.replicate 512 0 := load_zero _ _
  rw [hzero]
  exact verifyMetadataCRC_zero _ (by decide)

/-- With two footers the volume is settled by the first call. -/
theorem two_footers_settled :
    ∃ d₁ log, ensureJvckMetadata JvckMetadata.standard calm (blank 512 1024 (by decide)) [1, 2, 3] ⟨0, 2, 131072⟩ =
        (.ok true, d₁, log) ∧
      Settled JvckMetadata.standard [1, 2, 3] ⟨0, 2, 131072⟩ d₁ := by
  obtain ⟨d₁, log, h⟩ := ensure_creates_blank (o := ⟨0, 2, 131072⟩) (by decide) (by decide) [1, 2, 3] (by decide)
  refine ⟨d₁, log, h, (settled_iff_footerLast (blank_healthy _) h).mpr ?_⟩
  exact ⟨by decide, .inl (by decide)⟩

/-- With one header replica the first call creates metadata that no further call looks for. -/
theorem one_header_unsettled :
    ∃ d₁ log, ensureJvckMetadata JvckMetadata.standard calm (blank 512 1024 (by decide)) [1, 2, 3] ⟨1, 0, 131072⟩ =
        (.ok true, d₁, log) ∧
      ¬ Settled JvckMetadata.standard [1, 2, 3] ⟨1, 0, 131072⟩ d₁ := by
  obtain ⟨d₁, log, h⟩ := ensure_creates_blank (o := ⟨1, 0, 131072⟩) (by decide) (by decide) [1, 2, 3] (by decide)
  refine ⟨d₁, log, h, fun hset => ?_⟩
  have hlast := footerLast_of_settled (blank_healthy _) h hset
  exact absurd hlast.1 (by decide)

end SdkEnsure
