import VolumeCrypt.Dispatch

/-!
# The raw-disk data path

PREPARE locates the partition on its disk from the answer to
`IOCTL_DISK_GET_PARTITION_INFO_EX`, and the sweep and the user I/O of a volume attached
without `AddDevice` then run over the disk with `OffsetSectorIo`
(`lib/windrv/src/ioctl/dispatch.rs`, `lib/windrv/src/io.rs`). A volume sector is reached
through this path and through the volume device, and the two must meet on the disk.
-/
namespace RawDisk

open ByteString ByteMemory VckTypes
open JvckMetadata (leU64)

/-! ## Sector requests -/

/-- The device behind a handle: its bytes, and whether it serves a request. -/
structure Disk where
  bytes : Memory
  serves : Bool → Nat → Nat → Bool

/-- A volume device that shows the disk from byte `start` on. -/
def Disk.partition (d : Disk) (start : Nat) : Disk where
  bytes := fun a => d.bytes (start + a)
  serves := fun isWrite off len => d.serves isWrite (start + off) len

/-- The byte offset and length that `KernelVolumeIo::run_sync` asks for, `none` for an empty buffer. -/
def runSync (sectorSize : UInt32) (lba : UInt64) (len : Nat) : VckResult (Option Nat) :=
  if len = 0 then .ok none
  else if 2 ^ 64 ≤ lba.toNat * sectorSize.toNat then .error (.io "sector offset overflow")
  else if 2 ^ 32 ≤ len then .error (.io "I/O length too large")
  else .ok (some (lba.toNat * sectorSize.toNat))

def zwReadFile (d : Disk) (off len : Nat) : VckResult Bytes :=
  if d.serves false off len then .ok (load d.bytes off len) else .error (.io "volume I/O failed")

/-- A write returns the new bytes of the device. -/
def zwWriteFile (d : Disk) (off : Nat) (buf : Bytes) : VckResult Memory :=
  if d.serves true off buf.length then .ok (save d.bytes off buf) else .error (.io "volume I/O failed")

def kernelRead (d : Disk) (sectorSize : UInt32) (lba : UInt64) (len : Nat) : VckResult Bytes :=
  match runSync sectorSize lba len with
  | .error e => .error e
  | .ok none => .ok []
  | .ok (some off) => zwReadFile d off len

def kernelWrite (d : Disk) (sectorSize : UInt32) (lba : UInt64) (buf : Bytes) : VckResult Memory :=
  match runSync sectorSize lba buf.length with
  | .error e => .error e
  | .ok none => .ok d.bytes
  | .ok (some off) => zwWriteFile d off buf

/-- `OffsetSectorIo` over a handle of the disk. -/
structure OffsetSectorIo where
  sectorSize : UInt32
  partitionStartLba : UInt64

def OffsetSectorIo.readSectors (io : OffsetSectorIo) (d : Disk) (lba : UInt64) (len : Nat) : VckResult Bytes :=
  kernelRead d io.sectorSize (io.partitionStartLba + lba) len

def OffsetSectorIo.writeSectors (io : OffsetSectorIo) (d : Disk) (lba : UInt64) (buf : Bytes) : VckResult Memory :=
  kernelWrite d io.sectorSize (io.partitionStartLba + lba) buf

/-! ## The partition query -/

/-- The answers to the two queries of a volume handle: success and the buffer left behind. -/
structure PartitionQuery where
  numberOk : Bool
  deviceNumber : UInt32 × UInt32
  infoOk : Bool
  partitionInfo : Fixed 64

inductive PreparePath where
  | addDevice
  | fallback
  deriving DecidableEq

/-- Disk and partition number; the AddDevice path does not look at the status. -/
def PreparePath.deviceNumber (path : PreparePath) (q : Option PartitionQuery) : UInt32 × UInt32 :=
  match path, q with
  | _, none => (0, 0)
  | .addDevice, some q => q.deviceNumber
  | .fallback, some q => if q.numberOk then q.deviceNumber else (0, 0)

/-- `start_offset_bytes`, from the eight bytes at offset 4. -/
def PreparePath.startOffsetBytes (path : PreparePath) (q : Option PartitionQuery) : UInt64 :=
  match path, q with
  | _, none => 0
  | .addDevice, some q => leU64 q.partitionInfo.toList 4
  | .fallback, some q => if q.infoOk then leU64 q.partitionInfo.toList 4 else 0

def PreparePath.partitionStartLba (path : PreparePath) (q : Option PartitionQuery) (sectorSize : UInt32) : UInt64 :=
  path.startOffsetBytes q / sectorSize.toUInt64

/-- `StartingOffset` of the x64 structure, after the style and four bytes of padding. -/
def startingOffset (info : Fixed 64) : UInt64 := leU64 info.toList 8

/-- What the kernel answers to a PREPARE whose partition queries gave `q`. -/
structure Answered {σ : Type} (k : Dispatch.PrepareAnswers σ) (path : PreparePath) (q : Option PartitionQuery) :
    Prop where
  deviceNumber : k.deviceNumber = path.deviceNumber q
  startBytes : k.startBytes = path.startOffsetBytes q

section Prepare

variable {σ : Type} {k : Dispatch.PrepareAnswers σ} {q : Option PartitionQuery} {req : Dispatch.JvckVolumePrepareReq}
  {s s' : DriverState.State σ} {resp : Dispatch.JvckVolumePrepareResp} {f : DriverState.FilterId}

/-- Completing the attach keeps the start that was computed before it. -/
theorem settle_partitionStartLba {keep : Dispatch.JvckVolumePrepareResp} {st : Dispatch.Settlement σ}
    (h : Dispatch.settle req f keep st s = (.ok resp, s')) : resp.partitionStartLba = keep.partitionStartLba := by
  cases st with
  | keep =>
    obtain ⟨h₁, _⟩ := Prod.mk.inj h
    rw [← Except.ok.inj h₁]
  | fail e undo => cases (Prod.mk.inj h).1
  | complete o =>
    obtain ⟨h₁, _⟩ := Prod.mk.inj h
    rw [← Except.ok.inj h₁]

/-- The start that PREPARE reports on the AddDevice path. -/
theorem addDevice_partitionStartLba {sectorSize : UInt32} {totalSectors : UInt64}
    (hk : Answered k .addDevice q) (hquery : k.query = .ok (sectorSize, totalSectors))
    (h : Dispatch.handleJvckPrepareAddDevicePath k req f s = (.ok resp, s')) :
    resp.partitionStartLba = PreparePath.addDevice.partitionStartLba q sectorSize := by
  rw [Dispatch.handleJvckPrepareAddDevicePath, hquery] at h
  simp only at h
  split at h
  · cases (Prod.mk.inj h).1
  · split at h
    · cases (Prod.mk.inj h).1
    · rw [settle_partitionStartLba h, hk.startBytes]
      rfl

/-- The start that PREPARE reports on the fallback path. -/
theorem fallback_partitionStartLba (hk : Answered k .fallback q)
    (h : Dispatch.handleJvckPrepareFallback k req s = (.ok resp, s')) :
    resp.partitionStartLba = PreparePath.fallback.partitionStartLba q k.handleGeometry.1 := by
  rw [Dispatch.handleJvckPrepareFallback] at h
  simp only at h
  split at h
  · cases (Prod.mk.inj h).1
  · split at h
    · cases (Prod.mk.inj h).1
    · rw [settle_partitionStartLba h, hk.startBytes]
      rfl

end Prepare

/-! ## Where a sector request ends up -/

/-- The raw-disk path reaches the partition that `info` describes. -/
structure AddressesPartition (info : Fixed 64) (sectorSize : UInt32) (partitionStartLba : UInt64) : Prop where
  start : partitionStartLba.toNat = (startingOffset info).toNat / sectorSize.toNat
  read : ∀ (d : Disk) (x : UInt64) (len : Nat),
    (startingOffset info).toNat + x.toNat * sectorSize.toNat < 2 ^ 64 → 0 < len → len < 2 ^ 32 →
    OffsetSectorIo.readSectors ⟨sectorSize, partitionStartLba⟩ d x len =
      zwReadFile d ((startingOffset info).toNat + x.toNat * sectorSize.toNat) len
  write : ∀ (d : Disk) (x : UInt64) (buf : Bytes),
    (startingOffset info).toNat + x.toNat * sectorSize.toNat < 2 ^ 64 → 0 < buf.length → buf.length < 2 ^ 32 →
    OffsetSectorIo.writeSectors ⟨sectorSize, partitionStartLba⟩ d x buf =
      zwWriteFile d ((startingOffset info).toNat + x.toNat * sectorSize.toNat) buf
  /-- A request to the volume device reads what the same request on the raw-disk path reads. -/
  volume_read : ∀ (d : Disk) (x : UInt64) (len : Nat),
    (startingOffset info).toNat + x.toNat * sectorSize.toNat < 2 ^ 64 →
    kernelRead (d.partition (startingOffset info).toNat) sectorSize x len =
      OffsetSectorIo.readSectors ⟨sectorSize, partitionStartLba⟩ d x len
  /-- And writes what it writes. -/
  volume_write : ∀ (d : Disk) (x : UInt64) (buf : Bytes),
    (startingOffset info).toNat + x.toNat * sectorSize.toNat < 2 ^ 64 →
    kernelWrite (d.partition (startingOffset info).toNat) sectorSize x buf =
      (OffsetSectorIo.writeSectors ⟨sectorSize, partitionStartLba⟩ d x buf).map
        fun m a => m ((startingOffset info).toNat + a)

theorem runSync_of_lt {sectorSize : UInt32} {lba : UInt64} (len : Nat)
    (h : lba.toNat * sectorSize.toNat < 2 ^ 64) :
    runSync sectorSize lba len =
      if len = 0 then .ok none
      else if 2 ^ 32 ≤ len then .error (.io "I/O length too large")
      else .ok (some (lba.toNat * sectorSize.toNat)) := by
  rw [runSync, if_neg (Nat.not_le.mpr h)]

/-- The volume device serves a request at its place on the disk. -/
theorem zwReadFile_partition (d : Disk) (start off len : Nat) :
    zwReadFile (d.partition start) off len = zwReadFile d (start + off) len := by
  have hl : load (d.partition start).bytes off len = load d.bytes (start + off) len := by
    apply List.map_congr_left
    intro i _
    change d.bytes (start + (off + i)) = d.bytes (start + off + i)
    rw [Nat.add_assoc]
  rw [zwReadFile, zwReadFile, hl]
  rfl

theorem zwWriteFile_partition (d : Disk) (start off : Nat) (buf : Bytes) :
    zwWriteFile (d.partition start) off buf = (zwWriteFile d (start + off) buf).map fun m a => m (start + a) := by
  have hs : save (d.partition start).bytes off buf = fun a => save d.bytes (start + off) buf (start + a) := by
    funext a
    simp only [save, Disk.partition, Nat.add_le_add_iff_left, Nat.add_assoc, Nat.add_lt_add_iff_left,
      Nat.add_sub_add_left]
  rw [zwWriteFile, zwWriteFile, hs]
  change (if d.serves true (start + off) buf.length = true then _ else _) = _
  split <;> rfl

section Start

variable {info : Fixed 64} {sectorSize : UInt32} {startLba : UInt64}

/-- With the right start the two paths meet. -/
theorem addressesPartition_of_start (hd : sectorSize.toNat ∣ (startingOffset info).toNat)
    (hstart : startLba.toNat = (startingOffset info).toNat / sectorSize.toNat) (hs : 0 < sectorSize.toNat) :
    AddressesPartition info sectorSize startLba := by
  have hmul : startLba.toNat * sectorSize.toNat = (startingOffset info).toNat := by
    rw [hstart]
    exact Nat.div_mul_cancel hd
  have hsum (x : UInt64) (hx : (startingOffset info).toNat + x.toNat * sectorSize.toNat < 2 ^ 64) :
      (startLba + x).toNat * sectorSize.toNat = (startingOffset info).toNat + x.toNat * sectorSize.toNat := by
    have hlt : startLba.toNat + x.toNat < 2 ^ 64 := by
      apply Nat.lt_of_le_of_lt (Nat.le_mul_of_pos_right _ hs)
      rw [Nat.add_mul, hmul]
      exact hx
    rw [UInt64.toNat_add, Nat.mod_eq_of_lt hlt, Nat.add_mul, hmul]
  have hreq (x : UInt64) (len : Nat) (hx : (startingOffset info).toNat + x.toNat * sectorSize.toNat < 2 ^ 64) :=
    runSync_of_lt len (lt_of_eq_of_lt (hsum x hx) hx)
  have hvol (x : UInt64) (len : Nat) (hx : (startingOffset info).toNat + x.toNat * sectorSize.toNat < 2 ^ 64) :=
    runSync_of_lt len (lt_of_le_of_lt (Nat.le_add_left _ _) hx)
  constructor
  · exact hstart
  · intro d x len hx hpos hlen
    rw [OffsetSectorIo.readSectors, kernelRead, hreq x len hx, if_neg (by omega), if_neg (by omega), hsum x hx]
  · intro d x buf hx hpos hlen
    rw [OffsetSectorIo.writeSectors, kernelWrite, hreq x buf.length hx, if_neg (by omega), if_neg (by omega), hsum x hx]
  · intro d x len hx
    rw [OffsetSectorIo.readSectors, kernelRead, kernelRead, hreq x len hx, hvol x len hx, hsum x hx]
    by_cases hzero : len = 0
    · rw [if_pos hzero, if_pos hzero]
    · rw [if_neg hzero, if_neg hzero]
      by_cases hbig : 2 ^ 32 ≤ len
      · rw [if_pos hbig, if_pos hbig]
      · rw [if_neg hbig, if_neg hbig]
        exact zwReadFile_partition ..
  · intro d x buf hx
    rw [OffsetSectorIo.writeSectors, kernelWrite, kernelWrite, hreq x buf.length hx, hvol x buf.length hx, hsum x hx]
    by_cases hzero : buf.length = 0
    · rw [if_pos hzero, if_pos hzero]
      rfl
    · rw [if_neg hzero, if_neg hzero]
      by_cases hbig : 2 ^ 32 ≤ buf.length
      · rw [if_pos hbig, if_pos hbig]
        rfl
      · rw [if_neg hbig, if_neg hbig]
        exact zwWriteFile_partition ..

end Start

/-! ## The structure layout -/

/-- The padding after the style. -/
def padding (info : Fixed 64) : Nat := leNat (slice info.toList 4 4)

/-- The low half of `StartingOffset`. -/
def lowHalf (info : Fixed 64) : Nat := leNat (slice info.toList 8 4)

/-- The high half of `StartingOffset`. -/
def highHalf (info : Fixed 64) : Nat := leNat (slice info.toList 12 4)

/-- The words at offsets 4 and 8 make up the same sector number as those at 8 and 12. -/
def WordsAgree (info : Fixed 64) (sectorSize : UInt32) : Prop :=
  (lowHalf info = highHalf info ∧ lowHalf info ≤ padding info ∧ padding info < lowHalf info + sectorSize.toNat) ∨
    (lowHalf info = highHalf info + 1 ∧ 2 ^ 32 + padding info < lowHalf info + sectorSize.toNat)

theorem toNat_leU64_words (info : Fixed 64) {off : Nat} (h : off + 8 ≤ 64) :
    (leU64 info.toList off).toNat =
      leNat (slice info.toList off 4) + 2 ^ 32 * leNat (slice info.toList (off + 4) 4) := by
  have hlen (o : Nat) (ho : o + 4 ≤ 64) : (slice info.toList o 4).length = 4 :=
    length_slice_of_le (by rw [List.Vector.toList_length]; exact ho)
  have hsplit := slice_append_slice info.toList off 4 4
  have hlow := leNat_lt (slice info.toList off 4)
  have hhigh := leNat_lt (slice info.toList (off + 4) 4)
  rw [hlen _ (by omega)] at hlow hhigh
  rw [leU64, ← hsplit, leNat_append, hlen _ (by omega), UInt64.toNat_ofNat', Nat.mod_eq_of_lt]
  · rfl
  · omega

theorem words_lt (info : Fixed 64) {off : Nat} (h : off + 4 ≤ 64) : leNat (slice info.toList off 4) < 2 ^ 32 := by
  have hlt := leNat_lt (slice info.toList off 4)
  rwa [length_slice_of_le (by rw [List.Vector.toList_length]; exact h)] at hlt

/-- Equal quotients by the sector size, when it divides the second number. -/
theorem div_eq_div_iff_of_dvd {a b n : Nat} (hn : 0 < n) (hb : n ∣ b) : a / n = b / n ↔ b ≤ a ∧ a < b + n := by
  obtain ⟨k, rfl⟩ := hb
  rw [Nat.mul_div_cancel_left k hn, Nat.div_eq_iff hn]
  rw [Nat.mul_comm k n]
  omega

theorem partitionStartLba_eq (path : PreparePath) {q : PartitionQuery} (hq : q.infoOk = true) (sectorSize : UInt32) :
    (path.partitionStartLba (some q) sectorSize).toNat =
      (padding q.partitionInfo + 2 ^ 32 * lowHalf q.partitionInfo) / sectorSize.toNat := by
  have hbytes : path.startOffsetBytes (some q) = leU64 q.partitionInfo.toList 4 := by
    cases path with
    | addDevice => rfl
    | fallback => exact if_pos hq
  rw [PreparePath.partitionStartLba, hbytes, UInt64.toNat_div, UInt32.toNat_toUInt64, toNat_leU64_words _ (by decide)]
  rfl

/-- The start that PREPARE computes is right exactly for buffers whose words agree. -/
theorem addressesPartition_iff_wordsAgree (path : PreparePath) {q : PartitionQuery} (hq : q.infoOk = true)
    {sectorSize : UInt32} (hs : 0 < sectorSize.toNat)
    (hd : sectorSize.toNat ∣ (startingOffset q.partitionInfo).toNat) :
    AddressesPartition q.partitionInfo sectorSize (path.partitionStartLba (some q) sectorSize) ↔
      WordsAgree q.partitionInfo sectorSize := by
  have hstart := partitionStartLba_eq path hq sectorSize
  have hpad : padding q.partitionInfo < 2 ^ 32 := words_lt _ (by decide)
  have hlow : lowHalf q.partitionInfo < 2 ^ 32 := words_lt _ (by decide)
  have hhigh : highHalf q.partitionInfo < 2 ^ 32 := words_lt _ (by decide)
  have hsize := sectorSize.toNat_lt
  have hoff : (startingOffset q.partitionInfo).toNat =
      lowHalf q.partitionInfo + 2 ^ 32 * highHalf q.partitionInfo := toNat_leU64_words _ (by decide)
  have hquot := div_eq_div_iff_of_dvd (a := padding q.partitionInfo + 2 ^ 32 * lowHalf q.partitionInfo) hs hd
  have hwords : (path.partitionStartLba (some q) sectorSize).toNat =
      (startingOffset q.partitionInfo).toNat / sectorSize.toNat ↔ WordsAgree q.partitionInfo sectorSize := by
    rw [hstart, hquot, hoff, WordsAgree]
    omega
  constructor
  · intro h
    exact hwords.mp h.start
  · intro h
    exact addressesPartition_of_start hd (hwords.mpr h) hs

/-- A GPT partition that starts at 1 MiB, as the kernel describes it. -/
def mebibytePartition : PartitionQuery where
  numberOk := true
  deviceNumber := (0, 1)
  infoOk := true
  partitionInfo := Fixed.ofBytes 64 (leBytes 4 1 ++ leBytes 4 0 ++ leBytes 8 1048576 ++ leBytes 8 1073741824)

/-- Read four bytes too early, the start at 1 MiB becomes sector 2^43 of the disk. -/
theorem mebibytePartition_missed :
    mebibytePartition.infoOk = true ∧ 512 ∣ (startingOffset mebibytePartition.partitionInfo).toNat ∧
      (startingOffset mebibytePartition.partitionInfo).toNat / 512 = 2048 ∧
      PreparePath.fallback.partitionStartLba (some mebibytePartition) 512 = 0x80000000000 ∧
      ¬ AddressesPartition mebibytePartition.partitionInfo 512
        (PreparePath.fallback.partitionStartLba (some mebibytePartition) 512) := by
  have hlba : PreparePath.fallback.partitionStartLba (some mebibytePartition) 512 = 0x80000000000 := by decide
  have hstart : (startingOffset mebibytePartition.partitionInfo).toNat = 1048576 := by decide
  refine ⟨rfl, ?_, ?_, hlba, ?_⟩
  · rw [hstart]
    decide
  · rw [hstart]
  · intro h
    have hs := h.start
    rw [hlba, hstart] at hs
    revert hs
    decide

/-- A partition behind 2 TiB. The halves of its start are equal, and the padding holds the same word. -/
def farPartition : PartitionQuery where
  numberOk := true
  deviceNumber := (0, 1)
  infoOk := true
  partitionInfo := Fixed.ofBytes 64 (leBytes 4 1 ++ leBytes 4 512 ++ leBytes 8 2199023256064 ++ leBytes 8 1073741824)

/-- Its start comes out right. -/
theorem farPartition_addressed :
    PreparePath.fallback.partitionStartLba (some farPartition) 512 = 4294967297 ∧
      AddressesPartition farPartition.partitionInfo 512
        (PreparePath.fallback.partitionStartLba (some farPartition) 512) := by
  have hlba : PreparePath.fallback.partitionStartLba (some farPartition) 512 = 4294967297 := by decide
  have hstart : (startingOffset farPartition.partitionInfo).toNat = 2199023256064 := by decide
  have hdvd : (512 : UInt32).toNat ∣ (startingOffset farPartition.partitionInfo).toNat := by
    rw [hstart]
    decide
  have hwords : WordsAgree farPartition.partitionInfo 512 := .inl (by decide)
  exact ⟨hlba, (addressesPartition_iff_wordsAgree .fallback rfl (by decide) hdvd).mpr hwords⟩

end RawDisk
